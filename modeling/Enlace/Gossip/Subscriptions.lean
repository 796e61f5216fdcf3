import Enlace.Gossip.Connections
import Enlace.Gossip.Disconnect
import Enlace.Gossip.NeighborEvents
import Enlace.Gossip.Registry

set_option autoImplicit false

/-! The neighbours that a subscription knows of are those of its topic in the protocol. -/
namespace Enlace.Gossip
open ByteString Transition List Function OrderedSet IrohGossipSubscription ProtocolHistory

def Task.follow (topicId : TopicId) (neighbors : List PeerId) : Task → List PeerId
  | .out event => event.follow topicId neighbors
  | _ => neighbors

def Task.announces (peer : PeerId) : Task → Bool
  | .out (.emitEvent _ (.neighborUp up)) => up = peer
  | _ => false

lemma foldl_follow_out (topicId : TopicId) (out : List GossipProtocolOutEvent) (ns : List PeerId) :
    (out.map Task.out).foldl (Task.follow topicId) ns = out.foldl (GossipProtocolOutEvent.follow topicId) ns := by
 rw [foldl_map]
 rfl

lemma foldl_follow_peerReady (topicId : TopicId) (peers : List IrohEndpointAddress) (ns : List PeerId) :
    (peers.map fun peer => Task.peerReady peer.endpointId).foldl (Task.follow topicId) ns = ns := by
 induction peers with
 | nil => rfl
 | cons peer peers ih => exact ih

variable {topicId : TopicId}

lemma Task.follow_delete {peer : PeerId} {task : Task} (hup : task.announces peer = false) (ns : List PeerId) :
    task.follow topicId (delete ns peer) = delete (task.follow topicId ns) peer := by
 match task with
 | .closeSubscription _ => rfl
 | .peerReady _ => rfl
 | .out (.sendMessage _ _ _) => rfl
 | .out (.scheduleTimer _ _ _) => rfl
 | .out (.disconnectPeer _) => rfl
 | .out (.peerData _ _) => rfl
 | .out (.emitEvent other event) =>
  change (if other = topicId then _ else _) = delete (if other = topicId then _ else _) peer
  split_ifs with heq
  · cases event with
    | neighborUp up =>
     have hne : up ≠ peer := of_decide_eq_false hup
     exact (delete_add hne ns).symm
    | neighborDown down => exact delete_delete ns down peer
    | received _ _ _ _ => rfl
  · rfl

lemma foldl_follow_delete {peer : PeerId} {todo : List Task}
    (hup : ∀ task ∈ todo, task.announces peer = false) (ns : List PeerId) :
    todo.foldl (Task.follow topicId) (delete ns peer) = delete (todo.foldl (Task.follow topicId) ns) peer := by
 induction todo generalizing ns with
 | nil => rfl
 | cons task todo ih =>
  obtain ⟨ht,hrest⟩:=forall_mem_cons.mp hup
  rw [foldl_cons,foldl_cons,Task.follow_delete ht,ih hrest]

/-- Outputs that tell only of the loss of a peer can be processed before the tasks that were there. -/
theorem foldl_follow_comm {peer : PeerId} {todo : List Task} {out : List GossipProtocolOutEvent}
    (hup : ∀ task ∈ todo, task.announces peer = false) (ho : ∀ other event, .emitEvent other event ∈ out →
      TopicOutEvent.Plain (.emitEvent event) ∨ event = .neighborDown peer) (ns : List PeerId) :
    todo.foldl (Task.follow topicId) (out.foldl (GossipProtocolOutEvent.follow topicId) ns) =
      out.foldl (GossipProtocolOutEvent.follow topicId) (todo.foldl (Task.follow topicId) ns) := by
 induction out generalizing ns with
 | nil => rfl
 | cons event out ih =>
  have hrest:=ih fun other event hm=>ho other event (mem_cons_of_mem _ hm)
  rw [foldl_cons,foldl_cons,hrest]
  congr 1
  match event with
  | .sendMessage _ _ _ => rfl
  | .scheduleTimer _ _ _ => rfl
  | .disconnectPeer _ => rfl
  | .peerData _ _ => rfl
  | .emitEvent other event =>
   change todo.foldl _ (if other = topicId then _ else _) = if other = topicId then _ else _
   split_ifs with heq
   · rcases ho other event mem_cons_self with hp|rfl
     · have hs : ∀ ns, event.follow ns = ns := hp.follow
       rw [hs,hs]
     · exact foldl_follow_delete hup ns
   · rfl

namespace IrohGossipSubscription

structure Resolved (s : IrohGossipSubscription) : Prop where
  joined : s.neighbors ≠ [] → s.joinedResolvers = 0
  peers : ∀ peer ∈ s.neighbors, peer ∉ s.peerJoined

lemma Resolved.push {s : IrohGossipSubscription} (h : s.Resolved) (event : IrohGossipEvent) :
    (s.push event).Resolved := by
 unfold IrohGossipSubscription.push
 split_ifs
 · exact h
 · cases event with
   | neighborUp topicId peer =>
    refine ⟨fun _=>rfl,fun other ho hm=>?_⟩
    obtain ⟨hj,hne⟩:=mem_delete.mp hm
    rcases mem_add.mp ho with hold|heq
    · exact h.peers other hold hj
    · exact hne heq
   | neighborDown topicId peer =>
    refine ⟨fun hne=>h.joined fun hn=>hne ?_,fun other ho=>?_⟩
    · rw [hn]
      rfl
    · exact h.peers other (mem_delete.mp ho).1
   | join topicId peerData | message topicId src id payload scope => exact ⟨h.joined,h.peers⟩

lemma resolved_create (topicId : TopicId) : (create topicId).Resolved :=
 ⟨fun h=>absurd rfl h,nofun⟩

lemma resolved_fail (s : IrohGossipSubscription) : s.fail.Resolved := ⟨fun _=>rfl,fun _ _=>not_mem_nil⟩

lemma resolved_close (s : IrohGossipSubscription) : s.close.Resolved := ⟨fun _=>rfl,fun _ _=>not_mem_nil⟩

lemma isJoined_iff {s : IrohGossipSubscription} : s.isJoined = true ↔ s.neighbors ≠ [] := by
 simp [isJoined]

def Waits (f : IrohGossipSubscription → IrohGossipSubscription) : Prop :=
  ∀ s, (∃ events resolvers peers, f s =
    { s with events := events, joinedResolvers := resolvers, peerJoined := peers }) ∧ (s.Resolved → (f s).Resolved)

namespace Waits

variable {f : IrohGossipSubscription → IrohGossipSubscription} (h : Waits f) (s : IrohGossipSubscription)
include h

lemma neighbors : (f s).neighbors = s.neighbors := by
 obtain ⟨_,_,_,heq⟩:=(h s).1
 rw [heq]

lemma place : (f s).place = s.place := by
 obtain ⟨_,_,_,heq⟩:=(h s).1
 rw [heq]
 rfl

end Waits

lemma waits_id : Waits id := fun _=>⟨⟨_,_,_,rfl⟩,fun h=>h⟩

lemma waits_push_join (topicId : TopicId) (peerData : Option Bytes) : Waits (push (.join topicId peerData)) := by
 intro s
 unfold push
 split_ifs
 · exact ⟨⟨_,_,_,rfl⟩,fun h=>h⟩
 · exact ⟨⟨_,_,_,rfl⟩,fun h=>⟨h.joined,h.peers⟩⟩

lemma waits_joined : Waits joined := by
 intro s
 unfold joined
 split_ifs with hj
 · exact ⟨⟨_,_,_,rfl⟩,fun h=>h⟩
 · exact ⟨⟨_,_,_,rfl⟩,fun h=>⟨fun hne=>absurd (isJoined_iff.mpr hne) hj,h.peers⟩⟩

lemma waits_awaitPeer (peer : PeerId) : Waits (awaitPeer peer) := by
 intro s
 unfold awaitPeer
 split_ifs with hpeer
 · exact ⟨⟨_,_,_,rfl⟩,fun h=>h⟩
 · refine ⟨⟨_,_,_,rfl⟩,fun h=>⟨h.joined,fun other ho hm=>?_⟩⟩
   rcases mem_add.mp hm with hold|rfl
   · exact h.peers other ho hold
   · exact hpeer (has_eq_true.mpr ho)

lemma waits_fail : Waits fail := fun s=>⟨⟨_,_,_,rfl⟩,fun _=>s.resolved_fail⟩

end IrohGossipSubscription

namespace GossipActor
open IrohGossipSubscription (Waits core_push waits_id waits_push_join waits_joined waits_awaitPeer waits_fail
 resolved_create
  resolved_close)
open GossipProtocolState (activeView_handle_follow handle_peerDisconnected_emits foldl_follow_quit_of_ne
 wellFormed_handle)

/-- The open subscriptions will know the neighbours of their topic when the tasks are done. -/
structure Mirrored (a : GossipActor) : Prop where
  wellFormed : a.state.WellFormed
  registered : a.Registered
  follows : ∀ topicId n, n ∈ a.subscribers topicId →
    a.todo.foldl (Task.follow topicId) (a.handles n).neighbors = a.state.activeView topicId
  resolved : ∀ n, (a.handles n).Resolved

variable (blake3 : Bytes → MessageId)

variable {event : GossipProtocolTopicEvent} {f : IrohGossipSubscription → IrohGossipSubscription}

namespace Mirrored

variable {a : GossipActor} {nowMs : ℕ}

variable {todo : List Task}

section
variable (h : a.Mirrored)
include h

lemma withTodo (hs : ∀ topicId neighbors, todo.foldl (Task.follow topicId) neighbors =
      a.todo.foldl (Task.follow topicId) neighbors) : ({ a with todo := todo } : GossipActor).Mirrored :=
 ⟨h.wellFormed,h.registered.of_eq rfl,
  fun topicId n hn=>(hs _ _).trans (h.follows topicId n hn),h.resolved⟩

lemma withPeers (peers : PeerTable) : ({ a with toPeerTable := peers } : GossipActor).Mirrored :=
 ⟨h.wellFormed,h.registered.of_eq rfl,h.follows,h.resolved⟩

lemma withAccepting (accepting : Bool) : ({ a with accepting := accepting } : GossipActor).Mirrored :=
 ⟨h.wellFormed,h.registered.of_eq rfl,h.follows,h.resolved⟩

lemma waits {handles : ℕ → IrohGossipSubscription} (hs : ∀ n, ∃ f, Waits f ∧ handles n = f (a.handles n)) :
    ({ a with handles := handles } : GossipActor).Mirrored := by
 refine ⟨h.wellFormed,h.registered.of_place fun n=>?_,fun topicId n hn=>?_,fun n=>?_⟩
 · obtain ⟨f,hf,heq⟩:=hs n
   rw [heq,hf.place]
 · obtain ⟨f,hf,heq⟩:=hs n
   dsimp only
   rw [heq,hf.neighbors]
   exact h.follows topicId n hn
 · obtain ⟨f,hf,heq⟩:=hs n
   dsimp only
   rw [heq]
   exact (hf _).2 (h.resolved n)

lemma onHandle (hf : Waits f) (n : ℕ) : (a.onHandle n f).Mirrored := by
 refine h.waits fun m=>?_
 by_cases heq : m = n
 · subst heq
   exact ⟨f,hf,update_self ..⟩
 · exact ⟨id,waits_id,update_of_ne heq ..⟩

lemma onSubscribers (hf : Waits f) (subscribers : List ℕ) : (a.onSubscribers subscribers f).Mirrored := by
 refine h.waits fun m=>?_
 by_cases hm : has subscribers m = true
 · exact ⟨f,hf,if_pos hm⟩
 · exact ⟨id,waits_id,if_neg hm⟩

/-- The outputs of an event are processed before the tasks that were there: the two commute. -/
theorem handle (event : GossipProtocolInEvent)
    (hq : ∀ topicId, event = .command topicId .quit → a.subscribers topicId = [])
    (hc : ∀ topicId n, n ∈ a.subscribers topicId → ∀ neighbors, a.todo.foldl (Task.follow topicId)
        ((GossipProtocolState.handle blake3 event nowMs a.state).1.foldl
          (GossipProtocolOutEvent.follow topicId) neighbors) =
      (GossipProtocolState.handle blake3 event nowMs a.state).1.foldl (GossipProtocolOutEvent.follow topicId)
        (a.todo.foldl (Task.follow topicId) neighbors)) : (a.handle blake3 event nowMs).Mirrored := by
 refine ⟨wellFormed_handle blake3 event nowMs _ h.wellFormed,h.registered.of_eq rfl,fun topicId n hn=>?_,h.resolved⟩
 have hevent : event ≠ .command topicId .quit := by
  intro heq
  change n ∈ a.subscribers topicId at hn
  rw [hq topicId heq] at hn
  exact absurd hn not_mem_nil
 change (map Task.out _ ++ a.todo).foldl _ (a.handles n).neighbors = _
 rw [foldl_append,foldl_follow_out,hc topicId n hn,h.follows topicId n hn]
 exact (activeView_handle_follow blake3 h.wellFormed event nowMs hevent).symm

lemma handle_of_idle (hi : a.todo = []) (event : GossipProtocolInEvent)
    (hq : ∀ topicId, event ≠ .command topicId .quit) : (a.handle blake3 event nowMs).Mirrored := by
 refine h.handle blake3 event (fun topicId heq=>absurd heq (hq topicId)) fun topicId n _ ns=>?_
 rw [hi]
 rfl

lemma onPeers (m : PeersM (Option PeerId))
    (hup : ∀ peer ∈ (m a.toPeerTable).1, ∀ task ∈ a.todo, task.announces peer = false) :
    (a.onPeers blake3 m nowMs).Mirrored := by
 have ht:=h.withPeers (m a.toPeerTable).2
 unfold GossipActor.onPeers
 cases hl : (m a.toPeerTable).1 with
 | none => exact ht
 | some peer =>
  refine ht.handle blake3 (.peerDisconnected peer) (fun topicId heq=>nomatch heq) fun topicId n _ ns=>?_
  exact foldl_follow_comm (hup peer hl)
   (fun other event hm=>handle_peerDisconnected_emits blake3 h.wellFormed hm) ns

variable {topicId : TopicId}

lemma pushTopicEvent (ht : a.todo = .out (.emitEvent topicId event) :: todo) {pushed : IrohGossipEvent}
    (hpu : ∀ s : IrohGossipSubscription, s.closed = false → (s.push pushed).neighbors = event.follow s.neighbors) :
    ({ a with todo := todo }.pushTopicEvent topicId pushed).Mirrored := by
 have hp : ({ a with todo := todo } : GossipActor).Registered := h.registered.of_eq rfl
 have hr:=hp.of_core (core_onSubscribers (core_push pushed) (a.subscribers topicId) _)
 have hh : ∀ n, ({ a with todo := todo }.pushTopicEvent topicId pushed).handles n =
   if n ∈ a.subscribers topicId then (a.handles n).push pushed else a.handles n :=
  fun n=>handles_onSubscribers _ _ n _
 refine ⟨h.wellFormed,hr,fun other n hn=>?_,fun n=>?_⟩
 · change n ∈ a.subscribers other at hn
   refine Eq.trans ?_ (h.follows other n hn)
   rw [hh,ht]
   change todo.foldl _ _ = todo.foldl _ (if topicId = other then _ else _)
   by_cases heq : topicId = other
   · subst heq
     rw [if_pos hn,if_pos rfl,hpu _ (h.registered.subscribed topicId n hn).1.2]
   · have hno : n ∉ a.subscribers topicId := fun hm=>
      heq ((h.registered.subscribed topicId n hm).2.symm.trans (h.registered.subscribed other n hn).2)
     rw [if_neg hno,if_neg heq]
 · rw [hh]
   split_ifs
   · exact (h.resolved n).push pushed
   · exact h.resolved n

lemma emitEvent (ht : a.todo = .out (.emitEvent topicId event) :: todo) :
    ({ a with todo := todo }.emitEvent topicId event).Mirrored := by
 cases event with
 | neighborUp peer =>
  refine (h.pushTopicEvent ht fun s hs=>?_).onSubscribers (waits_push_join topicId none) _
  simp [push,hs,GossipProtocolTopicEvent.follow]
 | neighborDown peer | received src id payload scope =>
  refine h.pushTopicEvent ht fun s hs=>?_
  simp [push,hs,GossipProtocolTopicEvent.follow]

lemma leave (n : ℕ) {subscriptions : List (TopicId × List ℕ)}
    (hme : ∀ topicId m, m ∈ (OrderedMap.get subscriptions topicId).getD [] ↔ m ∈ a.subscribers topicId ∧ m ≠ n) :
    ({ a.onHandle n (·.close) with subscriptions := subscriptions } : GossipActor).Mirrored := by
 refine ⟨h.wellFormed,h.registered.leave n hme,fun topicId m hm=>?_,fun m=>?_⟩
 · obtain ⟨hin,hne⟩:=(hme topicId m).mp hm
   rw [handles_onHandle_of_ne hne]
   exact h.follows topicId m hin
 · by_cases heq : m = n
   · rw [heq,handles_onHandle_self]
     exact resolved_close _
   · rw [handles_onHandle_of_ne heq]
     exact h.resolved m

lemma closeSubscription (n : ℕ) : (a.closeSubscription blake3 n nowMs).Mirrored := by
 rcases closeSubscription_cases blake3 h.registered n with
  ⟨heq,_⟩ | ⟨subs,hme,⟨heq,_⟩ | ⟨hn,heq⟩⟩
 · rw [heq]
   exact h
 · rw [heq]
   exact h.leave n hme
 · rw [heq]
   refine (h.leave n hme).handle blake3 _ (fun topicId hevent=>?_) fun topicId m hm ns=>?_
   · cases hevent
     exact hn
   · have hne : (a.handles n).topicId ≠ topicId := by
      rintro rfl
      change m ∈ (OrderedMap.get subs _).getD [] at hm
      rw [hn] at hm
      exact absurd hm not_mem_nil
     rw [foldl_follow_quit_of_ne blake3 hne,foldl_follow_quit_of_ne blake3 hne]

lemma joinPeers (hi : a.todo = []) (topicId : TopicId)
    (peers : List IrohEndpointAddress) : (a.joinPeers blake3 topicId peers nowMs).Mirrored := by
 have ha : (a.rememberAddresses peers).Mirrored := h.withPeers _
 have hj : ((a.rememberAddresses peers).handle blake3 (.command topicId (.join (peers.map (·.endpointId))))
   nowMs).Mirrored :=
  ha.handle_of_idle blake3 hi _ fun other heq=>nomatch heq
 refine hj.withTodo fun other ns=>?_
 rw [foldl_append]
 exact foldl_follow_peerReady other peers _

lemma addSubscriber (hi : a.todo = [])
    (hv : a.state.activeView topicId = []) : (a.addSubscriber topicId).Mirrored := by
 have hs : (a.addSubscriber topicId).handles a.nextHandle = .create topicId := update_self ..
 have hh : ∀ n, n ≠ a.nextHandle → (a.addSubscriber topicId).handles n = a.handles n :=
  fun n hne=>update_of_ne hne ..
 refine ⟨h.wellFormed,h.registered.addSubscriber topicId,fun other n hn=>?_,fun n=>?_⟩
 · rcases (mem_subscribers_addSubscriber topicId other n a).mp hn with hold|⟨rfl,rfl⟩
   · rw [hh n (h.registered.subscribed other n hold).1.1.ne]
     exact h.follows other n hold
   · change a.todo.foldl _ _ = a.state.activeView topicId
     rw [hs,hi,hv]
     rfl
 · by_cases heq : n = a.nextHandle
   · rw [heq,hs]
     exact resolved_create topicId
   · rw [hh n heq]
     exact h.resolved n

lemma close (hi : a.todo = []) : a.close.Mirrored := by
 unfold GossipActor.close
 split_ifs
 · exact h
 · refine ⟨h.wellFormed,h.registered.of_eq rfl,fun topicId n hn=>?_,h.resolved⟩
   have hf:=h.follows topicId n hn
   rw [hi] at hf
   refine Eq.trans ?_ hf
   generalize (a.handles n).neighbors = neighbors
   induction a.subscriptions.flatMap Prod.snd with
   | nil => rfl
   | cons sub subs ih => exact ih

end

end Mirrored

section
variable (blake3 : Bytes → MessageId) (decodeRelayUrl : Bytes → Option String)

/-- The peer of the next message, if it gets lost. -/
def lost (a : GossipActor) (fail : Option ℕ) : Option PeerId :=
  match a.todo with
  | .out (.sendMessage peer _ _) :: _ => a.toPeerTable.lost fail peer
  | _ => none

/-- A topic is subscribed to while it has no neighbours, and no peer is lost that the subscriptions are still to be told
of. -/
def Admits (a : GossipActor) (event : GossipActorEvent × ℕ) : Prop :=
  match event.1 with
  | .subscribe topicId _ => a.state.activeView topicId = []
  | .work fail => ∀ peer ∈ a.lost fail, ∀ task ∈ a.todo, task.announces peer = false
  | _ => True

instance decidableAdmits (a : GossipActor) : DecidablePred a.Admits := fun event =>
  match event with
  | (.subscribe topicId _, _) => inferInstanceAs (Decidable (a.state.activeView topicId = []))
  | (.work fail, _) =>
    @Option.decidableForallMem PeerId (fun peer => ∀ task ∈ a.todo, task.announces peer = false)
      (fun _ => inferInstance) (a.lost fail)
  | (.closeSubscription _, _) | (.joined _, _) | (.joinPeer _ _, _) | (.joinPeers _ _, _) | (.awaitPeer _ _, _)
  | (.broadcast _ _ _, _) | (.timerExpired _ _, _) | (.accepted _ _ _, _) | (.acceptRejected, _) | (.dialed _ _ _ _, _)
  | (.dialFailed _ _, _) | (.message _ _ _ _, _) | (.readFailed _ _, _) | (.close, _) => isTrue trivial

lemma Mirrored.perform {a : GossipActor} {nowMs : ℕ} (h : a.Mirrored) {task : Task} {todo : List Task}
    (ht : a.todo = task :: todo) {fail : Option ℕ} (hok : a.Admits (.work fail, nowMs)) :
    ({ a with todo := todo }.perform blake3 decodeRelayUrl fail task nowMs).Mirrored := by
 have hp : (∀ topicId ns, task.follow topicId ns = ns) → ({ a with todo := todo } : GossipActor).Mirrored := by
  intro hs
  refine h.withTodo fun topicId ns=>?_
  rw [ht,foldl_cons,hs]
 match task with
 | .closeSubscription n => exact (hp fun _ _=>rfl).closeSubscription blake3 n
 | .peerReady peer => exact (hp fun _ _=>rfl).withPeers _
 | .out (.sendMessage peer topicId msg) =>
  refine (hp fun _ _=>rfl).onPeers blake3 _ fun gone hg other hm=>?_
  have hl : gone ∈ a.lost fail := by
   rw [lost,ht]
   exact (PeerTable.sendMessage_fst ..).symm.trans hg
  refine hok gone hl other ?_
  rw [ht]
  exact mem_cons_of_mem _ hm
 | .out (.emitEvent topicId event) => exact h.emitEvent ht
 | .out (.disconnectPeer peer) => exact (hp fun _ _=>rfl).withPeers _
 | .out (.scheduleTimer _ _ _) => exact hp fun _ _=>rfl
 | .out (.peerData peer peerData) =>
  have hrest:=hp fun _ _=>rfl
  change (GossipActor.updatePeerData decodeRelayUrl peer peerData _).Mirrored
  unfold updatePeerData
  split
  · exact hrest
  · exact hrest.withPeers _

lemma Mirrored.react {a next : GossipActor} {event : GossipActorEvent} {nowMs : ℕ} (h : a.Mirrored)
    (hi : a.todo = []) (hok : a.Admits (event, nowMs)) (hs : a.react blake3 event nowMs = some next) :
    next.Mirrored := by
 have hn : ∀ peer, ∀ task ∈ a.todo, task.announces peer = false := by
  intro peer task hm
  rw [hi] at hm
  exact absurd hm not_mem_nil
 cases event with
 | work fail => cases hs
 | subscribe topicId bootstrap =>
  cases hs
  exact (h.addSubscriber hi hok).joinPeers blake3 hi topicId bootstrap
 | closeSubscription n =>
  obtain ⟨_,rfl⟩:=of_guard hs
  exact h.closeSubscription blake3 n
 | joined n =>
  obtain ⟨_,rfl⟩:=of_guard hs
  exact h.onHandle waits_joined n
 | joinPeer n peer =>
  obtain ⟨_,rfl⟩:=of_guard hs
  exact (h.onHandle (waits_awaitPeer peer.endpointId) n).joinPeers blake3 hi _ [peer]
 | joinPeers n peers =>
  obtain ⟨_,rfl⟩:=of_guard hs
  exact h.joinPeers blake3 hi _ peers
 | awaitPeer n peer =>
  obtain ⟨_,rfl⟩:=of_guard hs
  exact h.onHandle (waits_awaitPeer peer) n
 | broadcast n payload scope =>
  obtain ⟨_,rfl⟩:=of_guard hs
  exact h.handle_of_idle blake3 hi (.command _ (.broadcast payload scope)) fun _ heq=>nomatch heq
 | timerExpired topicId timer =>
  obtain ⟨_,rfl⟩:=of_guard hs
  exact h.handle_of_idle blake3 hi (.timerExpired topicId timer) nofun
 | accepted peer conn fail =>
  obtain ⟨_,rfl⟩:=of_guard hs
  have hp : (a.onPeers blake3 (PeerTable.accepted a.closed fail peer conn) nowMs).Mirrored :=
   h.onPeers blake3 _ fun lost _=>hn lost
  exact hp.withAccepting _
 | acceptRejected =>
  obtain ⟨_,rfl⟩:=of_guard hs
  have hf : (if a.closed = true then a else a.failAll).Mirrored := by
   split_ifs
   · exact h
   · exact h.onSubscribers waits_fail _
  exact hf.withAccepting false
 | dialed id number conn fail | dialFailed id number | readFailed id conn =>
  obtain ⟨_,rfl⟩:=of_guard hs
  exact h.onPeers blake3 _ fun lost _=>hn lost
 | message id conn topicId msg =>
  obtain ⟨_,rfl⟩:=of_guard hs
  exact h.handle_of_idle blake3 hi (.recvMessage _ topicId msg) nofun
 | close =>
  cases hs
  exact h.close hi

lemma Mirrored.step {a next : GossipActor} {event : GossipActorEvent × ℕ} (h : a.Mirrored) (hok : a.Admits event)
    (hs : a.step blake3 decodeRelayUrl event = some next) : next.Mirrored := by
 rcases step_cases hs with ⟨hi,hr⟩|⟨task,todo,fail,ht,hevent,rfl⟩
 · exact h.react blake3 hi hok hr
 · obtain ⟨event,nowMs⟩:=event
   cases hevent
   exact h.perform blake3 decodeRelayUrl ht hok

/-- After a call, every open subscription has the neighbours of its topic, and none of its promises waits for one of
them. -/
def Mirrors (a : GossipActor) : Prop :=
  a.todo = [] → ∀ n, a.IsOpen n → (a.handles n).neighbors = a.state.activeView (a.handles n).topicId ∧
    (a.state.activeView (a.handles n).topicId ≠ [] →
      (a.handles n).isJoined = true ∧ (a.handles n).joinedResolvers = 0) ∧
    ∀ peer ∈ a.state.activeView (a.handles n).topicId, peer ∉ (a.handles n).peerJoined

lemma Mirrored.mirrors {a : GossipActor} (h : a.Mirrored) : a.Mirrors := by
 intro hi n hn
 have hf:=h.follows _ n (h.registered.listed n hn)
 rw [hi] at hf
 refine ⟨hf,?_,?_⟩
 · rw [← hf]
   exact fun hne=>⟨isJoined_iff.mpr hne,(h.resolved n).joined hne⟩
 · rw [← hf]
   exact (h.resolved n).peers

lemma mirrored_create {s : GossipProtocolState} (hs : s.WellFormed) : (create s).Mirrored := by
 refine ⟨hs,registered_create s,fun topicId n hn=>?_,fun n=>?_⟩
 · exact absurd hn not_mem_nil
 · exact resolved_create _

/-- Subscriptions mirror the swarm in every run all of whose steps are admitted. -/
theorem mirrors_of_admits {options : GossipProtocolStateOptions} {random : Stream' ℕ} {s : GossipProtocolState}
    (hcreate : GossipProtocolState.create options random = .ok s) {events : List (GossipActorEvent × ℕ)}
    {a : GossipActor}
    (hruns : GuardedRuns (step blake3 decodeRelayUrl) Admits (create s) events a) : a.Mirrors := by
 have hs:=mirrored_create (GossipProtocolState.wellFormed_create hcreate)
 exact (hruns.invariant Mirrored hs fun _ _ _ h hok hst=>h.step blake3 decodeRelayUrl hok hst).mirrors

end

def lateSubscriber : List (GossipActorEvent × ℕ) :=
  [(.subscribe (idOf 7) [], 0), (.work none, 0), (.accepted (idOf 2) 0 none, 1),
    (.message 0 0 (idOf 7) (.join none), 2), (.work none, 2), (.work none, 2),
    (.subscribe (idOf 7) [], 3), (.joined 1, 4)]

def crowded : GossipProtocolState := { ProtocolHistory.fresh with activeViewCapacity := 1 }

/-- A neighbour in two topics is replaced in one of them and lost while it is told so, and so is then the peer in its
place. -/
def lostReplacement : List (GossipActorEvent × ℕ) :=
  [(.subscribe (idOf 7) [], 0), (.work none, 0), (.subscribe (idOf 8) [], 0), (.work none, 0),
    (.accepted (idOf 2) 0 none, 1), (.message 0 0 (idOf 7) (.join none), 2), (.work none, 2), (.work none, 2),
    (.message 0 0 (idOf 8) (.join none), 3), (.work none, 3), (.work none, 3),
    (.message 0 0 (idOf 8) (.shuffleReply [⟨idOf 3, none⟩]), 4), (.accepted (idOf 3) 1 none, 5),
    (.message 1 1 (idOf 7) (.join none), 6), (.work none, 6), (.work (some 0), 6), (.work none, 6), (.work none, 6),
    (.work (some 0), 6)] ++ List.replicate 7 (.work none, 6)

/-- The second subscription does not know the neighbour and waits for one; another keeps a peer that is lost. -/
theorem subscription_misses_neighbor :
    (∃ a, Runs (step (fun _ => idOf 0) fun _ => none) (create ProtocolHistory.fresh) lateSubscriber a ∧
      a.todo = [] ∧ a.IsOpen 1 ∧ (a.handles 1).topicId = idOf 7 ∧
      a.state.activeView (idOf 7) = [idOf 2] ∧ (a.handles 0).neighbors = [idOf 2] ∧
      (a.handles 1).neighbors = [] ∧ (a.handles 1).joinedResolvers = 1) ∧
    ∃ a, Runs (step (fun _ => idOf 0) fun _ => none) (create crowded) lostReplacement a ∧
      a.todo = [] ∧ a.IsOpen 0 ∧ (a.handles 0).topicId = idOf 7 ∧
      a.state.activeView (idOf 7) = [] ∧ (a.handles 0).neighbors = [idOf 3] := by
 constructor
 · decide +kernel
 · decide +kernel

def earlySubscribers : List (GossipActorEvent × ℕ) :=
  [(.subscribe (idOf 7) [], 0), (.work none, 0), (.subscribe (idOf 7) [], 0), (.joined 1, 1),
    (.accepted (idOf 2) 0 none, 1), (.message 0 0 (idOf 7) (.join none), 2), (.work none, 2), (.work none, 2),
    (.closeSubscription 0, 3)]

theorem mirrors_for_early_subscribers :
    ∃ a, GuardedRuns (step (fun _ => idOf 0) fun _ => none) Admits (create ProtocolHistory.fresh) earlySubscribers a ∧
      a.todo = [] ∧ a.IsOpen 1 ∧ a.state.activeView (idOf 7) = [idOf 2] ∧ a.Mirrors := by
 obtain ⟨a,hr,hi,hopen,hv⟩ : ∃ a, GuardedRuns (step (fun _=>idOf 0) fun _=>none) Admits (create fresh)
   earlySubscribers a ∧ a.todo = [] ∧ a.IsOpen 1 ∧ a.state.activeView (idOf 7) = [idOf 2] := by
  decide +kernel
 exact ⟨a,hr,hi,hopen,hv,mirrors_of_admits (fun _=>idOf 0) (fun _=>none) create_fresh hr⟩

end GossipActor

end Enlace.Gossip
