import Enlace.Gossip.IHave
import Enlace.Gossip.LazyPush

set_option autoImplicit false

/-! The neighbours that have been sent nothing of a message yet, over the histories of a topic. -/
namespace Enlace.Gossip
open ByteString Transition List Option OrderedMap

variable {out : List TopicOutEvent} {nowMs : ℕ}

namespace GossipTopicState

def told (peer : PeerId) (id : MessageId) (out : List TopicOutEvent) : Bool :=
  out.any fun
    | .sendMessage other (.gossip message) => other = peer && message.id = id
    | .sendMessage other (.ihave messages) => other = peer && messages.any fun entry => entry.id = id
    | _ => false

variable {peer : PeerId}

lemma told_of_gossip {msg : GossipBroadcastMessage}
    (h : .sendMessage peer (.gossip msg) ∈ out) : told peer msg.id out = true :=
 any_eq_true.mpr ⟨_,h,by simp⟩

variable {s : GossipTopicState}

lemma told_append_shuffle {rest : List TopicOutEvent} (hrest : rest = [] ∨ rest = [scheduleShuffle]) (peer : PeerId)
    (id : MessageId) (out : List TopicOutEvent) : told peer id (out ++ rest) = told peer id out := by
 rcases hrest with rfl|rfl
 · rw [append_nil]
 · simp [scheduleShuffle,told]

section
variable (blake3 : Bytes → MessageId)

lemma handle_dispatch (nowMs : ℕ) (s : GossipTopicState) :
    (handle blake3 (.timerExpired (some .dispatchLazyPush)) nowMs s).2.toMesh =
      { s.toMesh with lazyPushQueue := [], dispatchTimerScheduled := false } ∧
    ∀ peer id, told peer id (handle blake3 (.timerExpired (some .dispatchLazyPush)) nowMs s).1 =
      told peer id (dispatchLazyPush (s.expireCaches nowMs)).1 := by
 obtain ⟨rest,hrest,ho,scheduled,hs⟩:=handle_cases blake3 (.timerExpired (some .dispatchLazyPush)) nowMs s
 rw [ho,hs]
 exact ⟨rfl,fun peer id=>told_append_shuffle hrest peer id _⟩

/-- The message that a graft asks for, if it is cached. -/
def regained (event : TopicInEvent) (s : GossipTopicState) : Option MessageId :=
  match event with
  | .recvMessage _ (.graft id _) => (id.bind s.cache).map fun cached => cached.message.id
  | _ => none

lemma told_handleGraft (id : Option MessageId) (owed : MessageId) :
    told peer owed (handleGraft peer id s).1 = true ↔ ((id.bind s.cache).map fun c => c.message.id) = some owed := by
 have hc : (addEager peer s).cache = s.cache := rfl
 rw [handleGraft,Stateful.modify_bind,Stateful.get_bind,hc]
 cases id.bind s.cache with
 | none => exact iff_of_false Bool.false_ne_true (Option.some_ne_none _).symm
 | some cached =>
  change told peer owed [.sendMessage peer (.gossip cached.message)] = true ↔ _
  simp [told]

lemma handleEvent_grafted {event : TopicInEvent} (h : grafted event nowMs s = some peer) :
    (handleEvent blake3 event nowMs s).2.toMesh = s.toMesh.addEager peer ∧
      ∀ id, told peer id (handleEvent blake3 event nowMs s).1 = true ↔ regained event s = some id := by
 unfold grafted at h
 split at h
 · cases h
   exact ⟨handleGraft_toMesh _ _ s,told_handleGraft _⟩
 · rename_i id
   rcases handleSendGraft_cases id nowMs s with ⟨hn,_⟩|⟨source,_,hs,hm,ho⟩
   · rw [grafted,h] at hn
     cases hn
   · rw [grafted,h] at hs
     cases hs
     refine ⟨hm,fun owed=>iff_of_false ?_ (Option.some_ne_none owed).symm⟩
     change ¬told _ owed (handleSendGraft id nowMs s).1 = true
     rw [ho]
     exact Bool.false_ne_true
 · cases h

lemma handle_grafted {event : TopicInEvent} (h : grafted event nowMs (s.expireCaches nowMs) = some peer) :
    (handle blake3 event nowMs s).2.toMesh = s.toMesh.addEager peer ∧
      ∀ id, told peer id (handle blake3 event nowMs s).1 = true ↔ regained event (s.expireCaches nowMs) = some id := by
 obtain ⟨rest,hr,ho,scheduled,hs⟩:=handle_cases blake3 event nowMs s
 obtain ⟨hm,ht⟩:=handleEvent_grafted blake3 h
 rw [hs,ho]
 exact ⟨hm,fun id=>by rw [told_append_shuffle hr,ht]⟩

end

end GossipTopicState

/-- A topic with the neighbours that are owed a message, and the number of dispatch timers set. -/
structure TopicHistory where
  state : GossipTopicState
  owed : List (PeerId × MessageId)
  timers : ℕ

namespace TopicHistory
open GossipTopicState

def dispatchTimers (out : List TopicOutEvent) : ℕ :=
  out.countP TopicOutEvent.isDispatchTimer

def due (neighbors : List PeerId) : Option (PeerId × MessageId) → List (PeerId × MessageId)
  | none => []
  | some (sender, id) => (neighbors.filter (· ≠ sender)).map fun peer => (peer, id)

section
variable (blake3 : Bytes → MessageId)

def record (h : TopicHistory) (event : TopicInEvent) (out : List TopicOutEvent) (state : GossipTopicState) :
    TopicHistory where
  state := state
  owed := (h.owed ++ due state.neighbors (pushes blake3 event h.state out)).filter fun entry =>
    OrderedSet.has state.neighbors entry.1 && !told entry.1 entry.2 out
  timers := h.timers - (if event = .timerExpired (some .dispatchLazyPush) then 1 else 0) + dispatchTimers out

def next (h : TopicHistory) (event : TopicInEvent) (nowMs : ℕ) : TopicHistory :=
  h.record blake3 event (handle blake3 event nowMs h.state).1 (handle blake3 event nowMs h.state).2

def step (h : TopicHistory) (event : TopicInEvent × ℕ) : Option TopicHistory := some (h.next blake3 event.1 event.2)

/-- A neighbour that the event makes eager is owed nothing but the cached message that it asks for. -/
def Settles (h : TopicHistory) (event : TopicInEvent × ℕ) : Prop :=
  ∀ peer, grafted event.1 event.2 (h.state.expireCaches event.2) = some peer → ∀ id, (peer, id) ∈ h.owed →
    regained event.1 (h.state.expireCaches event.2) = some id

structure Tracked (h : TopicHistory) : Prop where
  covered : h.state.toMesh.Covered
  scheduled : h.state.toMesh.Scheduled
  timers : h.state.dispatchTimerScheduled = true → 0 < h.timers
  owed : ∀ peer id, (peer, id) ∈ h.owed →
    peer ∈ h.state.neighbors ∧ ∃ round, (⟨id, round⟩ : GossipIHaveEntry) ∈ h.state.toMesh.queued peer

variable {h : TopicHistory}

lemma told_or_queued {sender peer : PeerId} {id : MessageId} {mesh mesh' : Mesh}
    (h : Pushed sender id mesh out mesh') (hc : mesh.Covered) (hpeer : peer ∈ mesh.neighbors) (hne : peer ≠ sender) :
    told peer id out = true ∨ ∃ round, (⟨id, round⟩ : GossipIHaveEntry) ∈ mesh'.queued peer := by
 rcases hc peer hpeer with he|hl
 · obtain ⟨msg,rfl,hm⟩:=h.sent peer he hne
   exact .inl (told_of_gossip hm)
 · obtain ⟨round,rfl⟩:=h.queued
   exact .inr ⟨round,Mesh.mem_queueLazies _ (mem_filter.mpr ⟨hl,decide_eq_true hne⟩) _⟩

lemma dispatchTimers_pos (h : .scheduleTimer lazyDispatchDelayMs .dispatchLazyPush ∈ out) : 0 < dispatchTimers out :=
 countP_pos_iff.mpr ⟨_,h,rfl⟩

variable {event : TopicInEvent}

lemma mem_owed_next {peer : PeerId} {id : MessageId} : (peer, id) ∈ (h.next blake3 event nowMs).owed ↔
      ((peer, id) ∈ h.owed ∨ (peer, id) ∈ due (handle blake3 event nowMs h.state).2.neighbors
        (pushes blake3 event h.state (handle blake3 event nowMs h.state).1)) ∧
      peer ∈ (handle blake3 event nowMs h.state).2.neighbors ∧
      told peer id (handle blake3 event nowMs h.state).1 = false := by
 rw [next,record,mem_filter]
 simp

section
variable (htracked : h.Tracked)
include htracked

lemma Tracked.push {sender : PeerId} {id : MessageId} (hevent : event ≠ .timerExpired (some .dispatchLazyPush))
    (hp : pushes blake3 event h.state (handle blake3 event nowMs h.state).1 = some (sender, id))
    (hpushed : Pushed sender id h.state.toMesh (handle blake3 event nowMs h.state).1
      (handle blake3 event nowMs h.state).2.toMesh) : (h.next blake3 event nowMs).Tracked := by
 obtain ⟨round,hm⟩:=hpushed.queued
 have hnt : (h.next blake3 event nowMs).state.toMesh = h.state.toMesh.push sender ⟨id,round⟩ := hm
 refine ⟨?_,?_,fun hse=>?_,fun peer owedId hme=>?_⟩
 · rw [hnt]
   exact htracked.covered
 · rw [hnt]
   exact Mesh.scheduled_push sender _
 · change 0 < h.timers - (if event = .timerExpired (some .dispatchLazyPush) then 1 else 0)+dispatchTimers _
   rw [if_neg hevent]
   rcases hpushed.scheduled hse with hold|hme
   · have := htracked.timers hold
     omega
   · have := dispatchTimers_pos hme
     omega
 · obtain ⟨how,hn,ht⟩:=(mem_owed_next blake3).mp hme
   have hs : (handle blake3 event nowMs h.state).2.neighbors = h.state.neighbors := by
    rw [hm]
    rfl
   refine ⟨hn,?_⟩
   rw [hs] at hn
   rcases how with hold|hnew
   · obtain ⟨_,oldRound,hq⟩:=htracked.owed peer owedId hold
     rw [hnt]
     exact ⟨oldRound,Mesh.subset_queueLazies _ _ _ peer hq⟩
   · rw [hp] at hnew
     obtain ⟨other,ho,heq⟩:=mem_map.mp hnew
     cases heq
     have hne:=of_decide_eq_true (mem_filter.mp ho).2
     rcases told_or_queued hpushed htracked.covered hn hne with hy|hq
     · rw [hy] at ht
       cases ht
     · exact hq

lemma Tracked.step
    (hevent : event ≠ .timerExpired (some .dispatchLazyPush)) (hse : h.Settles (event, nowMs))
    (hp : pushes blake3 event h.state (handle blake3 event nowMs h.state).1 = none)
    (hs : Mesh.Step (grafted event nowMs (h.state.expireCaches nowMs)) h.state.toMesh
      (handle blake3 event nowMs h.state).2.toMesh) : (h.next blake3 event nowMs).Tracked := by
 refine ⟨hs.covered htracked.covered,hs.scheduled htracked.scheduled,fun hset=>?_,fun peer id hm=>?_⟩
 · change 0 < h.timers - (if event = .timerExpired (some .dispatchLazyPush) then 1 else 0)+dispatchTimers _
   rw [if_neg hevent]
   have := htracked.timers (hs.dispatchTimerScheduled.symm.trans hset)
   omega
 · obtain ⟨ho,hn,ht⟩:=(mem_owed_next blake3).mp hm
   rw [hp] at ho
   have hold : (peer,id) ∈ h.owed := ho.resolve_right not_mem_nil
   obtain ⟨hbefore,round,hq⟩:=htracked.owed peer id hold
   refine ⟨hn,round,hs.queued_subset hbefore hn (fun hg=>?_) hq⟩
   rw [((handle_grafted blake3 hg).2 id).mpr (hse peer hg id hold)] at ht
   cases ht

end

end

def freshTopic : GossipTopicState := create (idOf 1) 5 4096 30 (fun _ => 0) (some [])

end TopicHistory

end Enlace.Gossip
