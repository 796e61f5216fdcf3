import Enlace.Gossip.Forwarding
import Enlace.Gossip.SwarmLayer

set_option autoImplicit false

/-! The messages that a topic delivers, over its histories with a clock that does not go back. -/
namespace Enlace.Gossip
open ByteString Stateful Transition List Function

namespace Mesh

lemma queued_queueLazies_of_notMem (entry : GossipIHaveEntry) {peers : List PeerId} {peer : PeerId} (h : peer ∉ peers)
    (queue : List (PeerId × List GossipIHaveEntry)) :
    (OrderedMap.get (GossipTopicState.queueLazies entry peers queue) peer).getD [] =
      (OrderedMap.get queue peer).getD [] := by
 induction peers generalizing queue with
 | nil => rfl
 | cons other peers ih =>
  obtain ⟨hne,hrest⟩:=not_or.mp (mt mem_cons.mpr h)
  refine (ih hrest _).trans ?_
  rw [queued_queueLazy,if_neg (Ne.symm hne),append_nil]

lemma queued_push_sender (sender : PeerId) (entry : GossipIHaveEntry) (mesh : Mesh) :
    (mesh.push sender entry).queued sender = mesh.queued sender := by
 refine queued_queueLazies_of_notMem entry (fun hm=>?_) _
 have hne : sender ≠ sender := of_decide_eq_true (mem_filter.mp hm).2
 exact hne rfl

end Mesh

variable (message : GossipBroadcastMessage) {out : List TopicOutEvent}

namespace GossipTopicState

/-- A message is remembered until the deadline. -/
def Remembers (nowMs deadline : ℕ) (id : MessageId) (s : GossipTopicState) : Prop :=
  deadline ≤ nowMs ∨ ∃ expiresAtMs, s.seenMessages id = some expiresAtMs ∧ deadline ≤ expiresAtMs

section
variable {nowMs deadline : ℕ} {id : MessageId}

lemma Remembers.of_eq {s t : GossipTopicState} (h : s.Remembers nowMs deadline id)
    (hs : t.seenMessages = s.seenMessages) : t.Remembers nowMs deadline id := by
 rw [Remembers,hs]
 exact h

lemma Remembers.of_keeps {α : Type} {m : TopicM α} (h : Keeps (·.seenMessages) m) :
    Preserves (Remembers nowMs deadline id) m :=
 fun s hs=>hs.of_eq (h s)

variable {s : GossipTopicState}

lemma Remembers.mono {laterMs : ℕ} (h : s.Remembers nowMs deadline id) (hle : nowMs ≤ laterMs) :
    s.Remembers laterMs deadline id :=
 h.imp_left fun hp=>hp.trans hle

lemma Remembers.expireCaches (h : s.Remembers nowMs deadline id) :
    (s.expireCaches nowMs).Remembers nowMs deadline id := by
 rcases h with hp|⟨expiresAtMs,hs,hle⟩
 · exact .inl hp
 · by_cases he : expiresAtMs ≤ nowMs
   · exact .inl (hle.trans he)
   · refine .inr ⟨expiresAtMs,?_,hle⟩
     change (s.seenMessages id).filter _ = some expiresAtMs
     rw [hs,Option.filter_some,if_pos (decide_eq_true he)]

lemma Remembers.storeGossip (h : s.Remembers nowMs deadline id)
    (hdeadline : deadline ≤ nowMs + messageIdRetentionMs) (message : GossipBroadcastMessage) :
    (s.storeGossip message nowMs).Remembers nowMs deadline id := by
 rcases h with hp|⟨expiresAtMs,hs,hle⟩
 · exact .inl hp
 · by_cases heq : id = message.id
   · refine .inr ⟨nowMs+messageIdRetentionMs,?_,hdeadline⟩
     rw [heq]
     exact update_self ..
   · refine .inr ⟨expiresAtMs,?_,hle⟩
     exact (update_of_ne heq ..).trans hs

lemma Remembers.passed (h : s.Remembers nowMs deadline id)
    (hu : (hasSeenMessage id nowMs s).1 = false) : deadline ≤ nowMs := by
 rcases h with hp|⟨expiresAtMs,hs,hle⟩
 · exact hp
 · rw [hasSeenMessage_fst,hs] at hu
   have he : expiresAtMs ≤ nowMs := by simpa using hu
   exact hle.trans he

end

variable (sender : PeerId)

lemma seen_lazyPush : Keeps (·.seenMessages) (lazyPush message sender) := by
 rw [lazyPush]
 cases message.scope with
 | neighbors => exact .pure _
 | swarm round =>
  refine .get_bind fun s=>?_
  split_ifs
  · rfl
  · rfl

lemma lazyPush_out (s : GossipTopicState) : (lazyPush message sender s).1 = [] ∨
      (lazyPush message sender s).1 = [.scheduleTimer lazyDispatchDelayMs .dispatchLazyPush] := by
 rw [lazyPush]
 cases message.scope with
 | neighbors => exact .inl rfl
 | swarm round =>
  dsimp only
  rw [get_bind]
  split_ifs
  · exact .inl rfl
  · exact .inr rfl

lemma deliver_neighbors {message : GossipBroadcastMessage} (h : message.scope = .neighbors) (peer : PeerId) (nowMs : ℕ)
    (s : GossipTopicState) :
    deliver peer message nowMs s = ([.emitEvent (.received peer message.id message.content .neighbors)], s) := by
 rw [deliver,h]
 rfl

lemma deliver_swarm {message : GossipBroadcastMessage} {round : ℕ} (h : message.scope = .swarm round) (peer : PeerId)
    (nowMs : ℕ) (s : GossipTopicState) :
    ∃ timers, (timers = [] ∨ timers = [.scheduleTimer lazyDispatchDelayMs .dispatchLazyPush]) ∧
      (deliver peer message nowMs s).1 = .emitEvent (.received peer message.id message.content (.swarm (round + 1))) ::
        (s.eagerPush { message with scope := .swarm (round + 1) } peer ++ timers) ∧
      (deliver peer message nowMs s).2.seenMessages =
        update s.seenMessages message.id (some (nowMs + messageIdRetentionMs)) ∧
      (deliver peer message nowMs s).2.toMesh = s.toMesh.push peer ⟨message.id, round + 1⟩ := by
 rw [deliver,h]
 dsimp only [deliveredScope]
 rw [modify_bind,get_bind,bind_apply]
 refine ⟨_,lazyPush_out _ _ _,rfl,?_,?_⟩
 · exact seen_lazyPush _ _ _
 · exact (lazyPush_swarm rfl peer (found { message with scope := .swarm (round+1) } nowMs s)).1

section
variable (blake3 : Bytes → MessageId)

lemma handleGossipMessage_cases (peer : PeerId) (message : GossipBroadcastMessage) (nowMs : ℕ) (s : GossipTopicState) :
    (message.id ≠ blake3 message.content ∧ handleGossipMessage blake3 peer message nowMs s = ([], s)) ∨
    (message.id = blake3 message.content ∧ (hasSeenMessage message.id nowMs s).1 = true ∧
      handleGossipMessage blake3 peer message nowMs s =
        ([.sendMessage peer .prune], (hasSeenMessage message.id nowMs s).2.addLazy peer)) ∨
    (message.id = blake3 message.content ∧ (hasSeenMessage message.id nowMs s).1 = false ∧
      handleGossipMessage blake3 peer message nowMs s =
        deliver peer message nowMs (hasSeenMessage message.id nowMs s).2) := by
 rw [handleGossipMessage]
 split_ifs with hid
 · exact .inl ⟨hid,rfl⟩
 · rw [bind_apply]
   cases hs : (hasSeenMessage message.id nowMs s).1 with
   | true => exact .inr (.inl ⟨not_not.mp hid,rfl,rfl⟩)
   | false => exact .inr (.inr ⟨not_not.mp hid,rfl,rfl⟩)

lemma broadcast_seen (payload : Bytes) (scope : Option GossipBroadcastScope) (nowMs : ℕ) (s : GossipTopicState) :
    (broadcast blake3 payload scope nowMs s).2.seenMessages = if broadcastScope scope = .neighbors then s.seenMessages
      else update s.seenMessages (blake3 payload) (some (nowMs + messageIdRetentionMs)) := by
 rw [broadcast]
 cases broadcastScope scope with
 | neighbors => rfl
 | swarm round =>
  dsimp only
  rw [modify_bind,get_bind,bind_apply,get_bind]
  exact seen_lazyPush _ _ _

variable {nowMs deadline : ℕ} {id : MessageId} (hdeadline : deadline ≤ nowMs + messageIdRetentionMs)
include hdeadline

lemma remembers_spreadClosed : SpreadClosed nowMs (fun _ => True) (Remembers nowMs deadline id) fun _ => True where
 eager _ _ := trivial
 queued _ _ := trivial
 looked {s other expiresAtMs} hs ho hexpired := by
  rcases hs with hp|⟨remembered,hse,hle⟩
  · exact .inl hp
  · by_cases heq : id = other
    · rw [heq,ho] at hse
      obtain rfl:=Option.some.inj hse
      exact .inl (hle.trans hexpired)
    · exact .inr ⟨remembered,(update_of_ne heq ..).trans hse,hle⟩
 eagerAdded hs _ := hs
 lazyAdded hs _ := hs
 stored message hs := hs.storeGossip hdeadline message
 announced _ _ _ hs := hs
 dispatched hs := hs
 sought _ _ hs _ := hs
 sent _ := trivial
 timed := trivial

lemma remembers_handleEvent (event : TopicInEvent) :
    Preserves (Remembers nowMs deadline id) (handleEvent blake3 event nowMs) := by
 cases hsp : event.spreads with
 | false =>
  have hsw:=swarmLayer_handleEvent blake3 hsp nowMs
  exact .of_keeps hsw.1
 | true =>
  intro s hs
  refine ((remembers_spreadClosed hdeadline).handleEvent blake3 hsp hs (fun _ _=>trivial) ?_ fun _ _ _ _ _=>trivial).1
  exact fun _ _ _ _ _ hs=>hs

lemma remembers_handle (event : TopicInEvent) :
    Preserves (Remembers nowMs deadline id) (handle blake3 event nowMs) := by
 intro s hs
 obtain ⟨_,_,_,scheduled,hst⟩:=handle_cases blake3 event nowMs s
 rw [hst]
 exact (remembers_handleEvent blake3 hdeadline event _ hs.expireCaches).of_eq rfl

end

def Undelivered (out : List TopicOutEvent) : Prop := ∀ event ∈ out, event.isReceived = false

lemma undelivered_nil : Undelivered [] := nofun

lemma undelivered_cons {event : TopicOutEvent} (hevent : event.isReceived = false)
    (h : Undelivered out) : Undelivered (event :: out) :=
 forall_mem_cons.mpr ⟨hevent,h⟩

lemma Undelivered.append {rest : List TopicOutEvent} (h : Undelivered out) (hrest : Undelivered rest) :
    Undelivered (out ++ rest) :=
 forall_mem_append.mpr ⟨h,hrest⟩

lemma Controls.undelivered (h : Controls out) : Undelivered out := by
 intro event hevent
 have hc:=h event hevent
 cases event with
 | emitEvent event =>
  cases event with
  | received src id payload scope => exact hc.elim
  | _ => rfl
 | _ => rfl

lemma undelivered_spreadClosed (nowMs : ℕ) :
    SpreadClosed nowMs (fun _ => True) (fun _ => True) fun event => event.isReceived = false where
 eager _ _ := trivial
 queued _ _ := trivial
 looked _ _ _ := trivial
 eagerAdded _ _ := trivial
 lazyAdded _ _ := trivial
 stored _ _ := trivial
 announced _ _ _ _ := trivial
 dispatched _ := trivial
 sought _ _ _ _ := trivial
 sent _ := rfl
 timed := rfl

lemma undelivered_handleEvent (blake3 : Bytes → MessageId) {event : TopicInEvent}
    (h : ∀ peer message, event ≠ .recvMessage peer (.gossip message)) (nowMs : ℕ) :
    Returns Undelivered (handleEvent blake3 event nowMs) := by
 intro s
 cases hs : event.spreads with
 | false =>
  have hsw:=swarmLayer_handleEvent blake3 hs nowMs
  exact Controls.undelivered (hsw.2 s)
 | true =>
  refine ((undelivered_spreadClosed nowMs).handleEvent blake3 hs (s := s) trivial (fun _ _=>trivial) ?_ ?_).2
  · exact fun _ _ _ _ _ _=>trivial
  · rintro ⟨peer,message,heq⟩
    exact absurd heq (h peer message)

lemma undelivered_eagerPush (s : GossipTopicState) : Undelivered (s.eagerPush message sender) := by
 intro event hevent
 obtain ⟨_,_,rfl⟩:=mem_map.mp hevent
 rfl

end GossipTopicState

inductive LogEntry where
  | received (nowMs : ℕ) (deliveredFrom : PeerId) (id : MessageId) (payload : Bytes) (scope : GossipDeliveryScope)
  | broadcast (nowMs : ℕ) (id : MessageId)

namespace LogEntry

def nowMs : LogEntry → ℕ
  | received nowMs _ _ _ _ => nowMs
  | broadcast nowMs _ => nowMs

def id : LogEntry → MessageId
  | received _ _ id _ _ => id
  | broadcast _ id => id

def isReceived : LogEntry → Bool
  | received _ _ _ _ _ => true
  | broadcast _ _ => false

def toSwarm : LogEntry → Bool
  | received _ _ _ _ .neighbors => false
  | _ => true

def Genuine (blake3 : Bytes → MessageId) : LogEntry → Prop
  | received _ _ id payload _ => blake3 payload = id
  | broadcast _ _ => True

end LogEntry

def TopicOutEvent.receives (nowMs : ℕ) : TopicOutEvent → Option LogEntry
  | .emitEvent (.received deliveredFrom id payload scope) => some (.received nowMs deliveredFrom id payload scope)
  | _ => none

def TopicInEvent.broadcasts (blake3 : Bytes → MessageId) (nowMs : ℕ) : TopicInEvent → List LogEntry
  | .command (.broadcast payload scope) =>
    if GossipTopicState.broadcastScope scope = .neighbors then [] else [.broadcast nowMs (blake3 payload)]
  | _ => []

structure TopicLog where
  state : GossipTopicState
  nowMs : ℕ
  entries : List LogEntry

namespace TopicLog
open GossipTopicState

section
variable (blake3 : Bytes → MessageId)

def logged (event : TopicInEvent) (nowMs : ℕ) (s : GossipTopicState) : List LogEntry :=
  event.broadcasts blake3 nowMs ++ (handle blake3 event nowMs s).1.filterMap (TopicOutEvent.receives nowMs)

def step (l : TopicLog) (event : TopicInEvent × ℕ) : Option TopicLog :=
  if l.nowMs ≤ event.2 then
    some ⟨(handle blake3 event.1 event.2 l.state).2, event.2, l.entries ++ logged blake3 event.1 event.2 l.state⟩
  else none

lemma Undelivered.filterMap (h : Undelivered out) (nowMs : ℕ) :
    out.filterMap (TopicOutEvent.receives nowMs) = [] := by
 refine filterMap_eq_nil_iff.mpr fun event hevent=>?_
 have hn:=h event hevent
 cases event with
 | emitEvent event =>
  cases event with
  | received src id payload scope => cases hn
  | _ => rfl
 | _ => rfl

structure Added (nowMs : ℕ) (s after : GossipTopicState) (entry : LogEntry) : Prop where
  time : entry.nowMs = nowMs
  genuine : entry.Genuine blake3
  unseen : entry.isReceived = true → (hasSeenMessage entry.id nowMs (s.expireCaches nowMs)).1 = false
  stored : entry.toSwarm = true → after.seenMessages entry.id = some (nowMs + messageIdRetentionMs)

lemma logged_cases (event : TopicInEvent) (nowMs : ℕ) (s : GossipTopicState) : logged blake3 event nowMs s = [] ∨
      ∃ entry, logged blake3 event nowMs s = [entry] ∧ Added blake3 nowMs s (handle blake3 event nowMs s).2 entry := by
 obtain ⟨rest,hrest,ho,scheduled,hst⟩:=handle_cases blake3 event nowMs s
 have hn : rest.filterMap (TopicOutEvent.receives nowMs) = [] := by
  rcases hrest with rfl|rfl
  · rfl
  · rfl
 rw [logged,ho,hst,filterMap_append,hn,append_nil]
 by_cases hg : ∃ peer message, event = .recvMessage peer (.gossip message)
 · obtain ⟨peer,message,rfl⟩:=hg
   change [] ++ (handleGossipMessage blake3 peer message nowMs (s.expireCaches nowMs)).1.filterMap _ = [] ∨
    ∃ entry, [] ++ (handleGossipMessage blake3 peer message nowMs (s.expireCaches nowMs)).1.filterMap _ = [entry] ∧
     Added blake3 nowMs s { (handleGossipMessage blake3 peer message nowMs (s.expireCaches nowMs)).2 with
      shuffleTimerScheduled := scheduled } entry
   rcases handleGossipMessage_cases blake3 peer message nowMs (s.expireCaches nowMs) with
    ⟨_,heq⟩ | ⟨_,_,heq⟩ | ⟨hid,hu,heq⟩
   · rw [heq]
     exact .inl rfl
   · rw [heq]
     exact .inl rfl
   · rw [heq]
     refine .inr ?_
     cases hs : message.scope with
     | neighbors =>
      rw [deliver_neighbors hs]
      exact ⟨.received nowMs peer message.id message.content .neighbors,rfl,rfl,hid.symm,fun _=>hu,
       fun hsw=>by cases hsw⟩
     | swarm round =>
      obtain ⟨timers,ht,hd,hse,_⟩ :=
       deliver_swarm hs peer nowMs (hasSeenMessage message.id nowMs (s.expireCaches nowMs)).2
      have hq : Undelivered timers := by
       rcases ht with rfl|rfl
       · exact undelivered_nil
       · exact undelivered_cons rfl undelivered_nil
      have hpushed:=Undelivered.filterMap ((undelivered_eagerPush { message with scope := .swarm (round+1) } peer
       (hasSeenMessage message.id nowMs (s.expireCaches nowMs)).2).append hq) nowMs
      refine ⟨.received nowMs peer message.id message.content (.swarm (round+1)),?_,rfl,hid.symm,fun _=>hu,
       fun _=>?_⟩
      · rw [hd,filterMap_cons,hpushed]
        rfl
      · change (deliver peer message nowMs _).2.seenMessages message.id = _
        rw [hse,update_self]
 · have hq : ∀ peer message, event ≠ .recvMessage peer (.gossip message) :=
    fun peer message heq=>hg ⟨peer,message,heq⟩
   rw [Undelivered.filterMap (undelivered_handleEvent blake3 hq nowMs (s.expireCaches nowMs)),append_nil]
   unfold TopicInEvent.broadcasts
   split
   · rename_i payload scope
     split_ifs with hs
     · exact .inl rfl
     · refine .inr ⟨.broadcast nowMs (blake3 payload),rfl,rfl,trivial,fun hr=>(by cases hr),fun _=>?_⟩
       change (broadcast blake3 payload scope nowMs (s.expireCaches nowMs)).2.seenMessages (blake3 payload) = _
       rw [broadcast_seen,if_neg hs,update_self]
   · exact .inl rfl

def Spaced (earlier later : LogEntry) : Prop :=
  earlier.toSwarm = true → later.isReceived = true → earlier.id = later.id →
    earlier.nowMs + messageIdRetentionMs ≤ later.nowMs

structure Sound (l : TopicLog) : Prop where
  past : ∀ entry ∈ l.entries, entry.nowMs ≤ l.nowMs
  remembered : ∀ entry ∈ l.entries, entry.toSwarm = true →
    l.state.Remembers l.nowMs (entry.nowMs + messageIdRetentionMs) entry.id
  spaced : l.entries.Pairwise Spaced
  genuine : ∀ entry ∈ l.entries, entry.Genuine blake3

lemma Sound.step {l next : TopicLog} {event : TopicInEvent × ℕ} (h : l.Sound blake3)
    (hst : l.step blake3 event = some next) : next.Sound blake3 := by
 obtain ⟨hc,rfl⟩:=of_guard hst
 obtain ⟨event,nowMs⟩:=event
 have hold : ∀ entry ∈ l.entries, entry.toSwarm = true →
   l.state.Remembers nowMs (entry.nowMs+messageIdRetentionMs) entry.id :=
  fun entry he hs=>(h.remembered entry he hs).mono hc
 have hk : ∀ entry ∈ l.entries, entry.toSwarm = true →
   (handle blake3 event nowMs l.state).2.Remembers nowMs (entry.nowMs+messageIdRetentionMs) entry.id := by
  intro entry he hs
  have hdeadline : entry.nowMs+messageIdRetentionMs ≤ nowMs+messageIdRetentionMs :=
   Nat.add_le_add_right ((h.past entry he).trans hc) _
  exact remembers_handle blake3 hdeadline event l.state (hold entry he hs)
 rcases logged_cases blake3 event nowMs l.state with hni|⟨entry,he,ha⟩
 · rw [hni,append_nil]
   exact ⟨fun old hm=>(h.past old hm).trans hc,hk,h.spaced,h.genuine⟩
 · rw [he]
   refine ⟨?_,?_,?_,?_⟩
   · intro old hm
     rcases mem_append.mp hm with hm|hm
     · exact (h.past old hm).trans hc
     · rw [mem_singleton.mp hm,ha.time]
   · intro old hm hs
     rcases mem_append.mp hm with hm|hm
     · exact hk old hm hs
     · obtain rfl:=mem_singleton.mp hm
       rw [ha.time]
       exact .inr ⟨_,ha.stored hs,le_rfl⟩
   · refine pairwise_append.mpr ⟨h.spaced,pairwise_singleton _ _,fun old hm new hn=>?_⟩
     obtain rfl:=mem_singleton.mp hn
     intro hs hr hid
     rw [ha.time]
     refine (hold old hm hs).expireCaches.passed ?_
     rw [hid]
     exact ha.unseen hr
   · intro old hm
     rcases mem_append.mp hm with hm|hm
     · exact h.genuine old hm
     · rw [mem_singleton.mp hm]
       exact ha.genuine

lemma silent_eagerPush (sender : PeerId) (s : GossipTopicState) : Silent sender (s.eagerPush message sender) := by
 intro sent hm
 obtain ⟨peer,hpeer,heq⟩:=mem_map.mp hm
 cases heq
 have hne : sender ≠ sender := of_decide_eq_true (mem_filter.mp hpeer).2
 exact hne rfl

lemma deliver_not_returned (peer : PeerId) (message : GossipBroadcastMessage) (nowMs : ℕ) (s : GossipTopicState)
    {src : PeerId} {id : MessageId} {payload : Bytes} {scope : GossipDeliveryScope}
    (h : .emitEvent (.received src id payload scope) ∈ (deliver peer message nowMs s).1) :
    src = peer ∧ Silent peer (deliver peer message nowMs s).1 ∧
      (deliver peer message nowMs s).2.toMesh.queued peer = s.toMesh.queued peer := by
 cases hs : message.scope with
 | neighbors =>
  rw [deliver_neighbors hs] at h ⊢
  cases mem_singleton.mp h
  exact ⟨rfl,fun _ hme=>(by cases mem_singleton.mp hme),rfl⟩
 | swarm round =>
  obtain ⟨timers,hti,ho,_,hm⟩:=deliver_swarm hs peer nowMs s
  rw [ho] at h ⊢
  rw [hm,Mesh.queued_push_sender]
  rcases mem_cons.mp h with heq|hme
  · cases heq
    refine ⟨rfl,fun sent hme=>?_,rfl⟩
    rcases mem_cons.mp hme with heq|hme
    · cases heq
    · rcases mem_append.mp hme with hpushed|ht
      · exact silent_eagerPush _ peer s sent hpushed
      · rcases hti with rfl|rfl
        · exact absurd ht not_mem_nil
        · cases mem_singleton.mp ht
  · rcases mem_append.mp hme with hpushed|ht
    · cases undelivered_eagerPush _ _ _ _ hpushed
    · rcases hti with rfl|rfl
      · exact absurd ht not_mem_nil
      · cases mem_singleton.mp ht

/-- The peer that a message comes from is sent and announced nothing in the same step. -/
theorem received_not_returned {event : TopicInEvent} {nowMs : ℕ} {s : GossipTopicState} {src : PeerId}
    {id : MessageId} {payload : Bytes} {scope : GossipDeliveryScope}
    (h : .emitEvent (.received src id payload scope) ∈ (handle blake3 event nowMs s).1) :
    Silent src (handle blake3 event nowMs s).1 ∧
      (handle blake3 event nowMs s).2.toMesh.queued src = s.toMesh.queued src := by
 obtain ⟨rest,hrest,ho,scheduled,hs⟩:=handle_cases blake3 event nowMs s
 rw [ho] at h ⊢
 rw [hs]
 have hd : .emitEvent (.received src id payload scope) ∈
   (handleEvent blake3 event nowMs (s.expireCaches nowMs)).1 := by
  rcases mem_append.mp h with hm|hm
  · exact hm
  · rcases hrest with rfl|rfl
    · exact absurd hm not_mem_nil
    · cases mem_singleton.mp hm
 by_cases hg : ∃ peer message, event = .recvMessage peer (.gossip message)
 · obtain ⟨peer,message,rfl⟩:=hg
   change _ ∈ (handleGossipMessage blake3 peer message nowMs (s.expireCaches nowMs)).1 at hd
   change Silent _ ((handleGossipMessage blake3 peer message nowMs (s.expireCaches nowMs)).1 ++ rest) ∧
    (handleGossipMessage blake3 peer message nowMs (s.expireCaches nowMs)).2.toMesh.queued src = _
   rcases handleGossipMessage_cases blake3 peer message nowMs (s.expireCaches nowMs) with
    ⟨_,heq⟩ | ⟨_,_,heq⟩ | ⟨_,_,heq⟩
   · rw [heq] at hd
     exact absurd hd not_mem_nil
   · rw [heq] at hd
     cases mem_singleton.mp hd
   · rw [heq] at hd ⊢
     obtain ⟨rfl,hsilent,hq⟩:=deliver_not_returned peer message nowMs _ hd
     refine ⟨hsilent.append (silent_of_shuffle hrest _),hq.trans ?_⟩
     rw [hasSeenMessage_toMesh]
     rfl
 · have hqu : ∀ peer message, event ≠ .recvMessage peer (.gossip message) :=
    fun peer message heq=>hg ⟨peer,message,heq⟩
   cases undelivered_handleEvent blake3 hqu nowMs _ _ hd

/-- A message for the swarm is delivered at most once while its id is kept, with the payload of its id, and does not go
back to where it came src. -/
theorem delivers_at_most_once (me : PeerId) (activeViewCapacity maxMessageSize passiveViewCapacity : ℕ)
    (random : Stream' ℕ) (peerData : Option Bytes) (startMs : ℕ) {events : List (TopicInEvent × ℕ)} {l : TopicLog}
    (hruns : Runs (TopicLog.step blake3)
      ⟨create me activeViewCapacity maxMessageSize passiveViewCapacity random peerData, startMs, []⟩ events l) :
    (l.entries.Pairwise fun earlier later => earlier.toSwarm = true → later.isReceived = true → earlier.id = later.id →
      earlier.nowMs + messageIdRetentionMs ≤ later.nowMs) ∧
    (∀ nowMs deliveredFrom id payload scope, .received nowMs deliveredFrom id payload scope ∈ l.entries →
      blake3 payload = id) ∧
    ∀ event nowMs deliveredFrom id payload scope,
      .emitEvent (.received deliveredFrom id payload scope) ∈ (handle blake3 event nowMs l.state).1 →
      (∀ message, .sendMessage deliveredFrom message ∉ (handle blake3 event nowMs l.state).1) ∧
        (handle blake3 event nowMs l.state).2.toMesh.queued deliveredFrom = l.state.toMesh.queued deliveredFrom := by
 have hst : Sound blake3
   ⟨create me activeViewCapacity maxMessageSize passiveViewCapacity random peerData,startMs,[]⟩ :=
  ⟨nofun,nofun,.nil,
   nofun⟩
 have hs:=hruns.invariant (Sound blake3) hst fun _ _ _ h hsp=>h.step blake3 hsp
 refine ⟨hs.spaced,fun nowMs deliveredFrom id payload scope hm=>hs.genuine _ hm,?_⟩
 exact fun event nowMs deliveredFrom id payload scope hm=>received_not_returned blake3 hm

end

/-- A message is broadcast, comes back at once, and again after its id has expired. -/
def comesBack : List (TopicInEvent × ℕ) :=
  [(.command (.broadcast [1] none), 0), (.recvMessage (idOf 2) (.gossip ⟨idOf 9, [1], .swarm 0⟩), 89999),
    (.recvMessage (idOf 2) (.gossip ⟨idOf 9, [1], .swarm 0⟩), 90000)]

theorem delivers_after_retention :
    ∃ l, Runs (TopicLog.step fun _ => idOf 9) ⟨create (idOf 1) 5 4096 30 (fun _ => 0) none, 0, []⟩ comesBack l ∧
      l.entries.map LogEntry.nowMs = [0, 90000] ∧
      l.entries.Pairwise fun earlier later => earlier.toSwarm = true → later.isReceived = true → earlier.id = later.id →
        earlier.nowMs + messageIdRetentionMs ≤ later.nowMs := by
 refine exists_and₂ (by decide +kernel) fun l hr _=>?_
 exact (delivers_at_most_once (fun _=>idOf 9) (idOf 1) 5 4096 30 (fun _=>0) none 0 hr).1

end TopicLog

end Enlace.Gossip
