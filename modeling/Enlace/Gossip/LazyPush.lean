import Enlace.Gossip.Views

set_option autoImplicit false

/-! Messages that are pushed to every neighbour, in full or as an announcement, over the histories of a topic. -/
namespace Enlace.Gossip
open ByteString Stateful List OrderedSet List.Subset

def TopicOutEvent.isReceived : TopicOutEvent → Bool
  | .emitEvent (.received _ _ _ _) => true
  | _ => false

def TopicOutEvent.isDispatchTimer : TopicOutEvent → Bool
  | .scheduleTimer _ .dispatchLazyPush => true
  | _ => false

namespace Mesh

def queued (mesh : Mesh) (peer : PeerId) : List GossipIHaveEntry := (OrderedMap.get mesh.lazyPushQueue peer).getD []

def push (sender : PeerId) (entry : GossipIHaveEntry) (mesh : Mesh) : Mesh :=
  { mesh with
    lazyPushQueue := GossipTopicState.queueLazies entry (mesh.lazyPeers.filter (· ≠ sender)) mesh.lazyPushQueue
    dispatchTimerScheduled := mesh.dispatchTimerScheduled ||
      decide ((GossipTopicState.queueLazies entry (mesh.lazyPeers.filter (· ≠ sender)) mesh.lazyPushQueue).length ≠ 0) }

def clear (mesh : Mesh) : Mesh :=
  { mesh with neighbors := [], eagerPeers := [], lazyPeers := [], lazyPushQueue := [] }

def Covered (mesh : Mesh) : Prop := ∀ peer ∈ mesh.neighbors, peer ∈ mesh.eagerPeers ∨ peer ∈ mesh.lazyPeers

variable {mesh : Mesh}

lemma Covered.addEager (h : mesh.Covered) (peer : PeerId) : (mesh.addEager peer).Covered := by
 intro other ho
 by_cases heq : other = peer
 · exact .inl (mem_add.mpr (.inr heq))
 · rcases h other ho with he|hl
   · exact .inl (mem_add.mpr (.inl he))
   · exact .inr (mem_delete.mpr ⟨hl,heq⟩)

lemma Covered.addLazy (h : mesh.Covered) (peer : PeerId) : (mesh.addLazy peer).Covered := by
 intro other ho
 by_cases heq : other = peer
 · exact .inr (mem_add.mpr (.inr heq))
 · rcases h other ho with he|hl
   · exact .inl (mem_delete.mpr ⟨he,heq⟩)
   · exact .inr (mem_add.mpr (.inl hl))

lemma Covered.forget (h : mesh.Covered) (peer : PeerId) : (mesh.forget peer).Covered := by
 intro other ho
 obtain ⟨hm,hne⟩:=mem_delete.mp ho
 rcases h other hm with he|hl
 · exact .inl (mem_delete.mpr ⟨he,hne⟩)
 · exact .inr (mem_delete.mpr ⟨hl,hne⟩)

lemma Covered.activate (h : mesh.Covered) (peer : PeerId) : (mesh.activate peer).Covered := by
 intro other ho
 by_cases heq : other = peer
 · exact .inl (mem_add.mpr (.inr heq))
 · rcases mem_add.mp ho with hm|hn
   · rcases h other hm with he|hl
     · exact .inl (mem_add.mpr (.inl he))
     · exact .inr (mem_delete.mpr ⟨hl,heq⟩)
   · exact absurd hn heq

lemma queued_subset_of_delete {mesh' : Mesh} {peer other : PeerId} (hne : other ≠ peer)
    (h : mesh'.lazyPushQueue = OrderedMap.delete mesh.lazyPushQueue peer) : mesh.queued other ⊆ mesh'.queued other := by
 rw [queued,queued,h,OrderedMap.get_delete,if_neg (Ne.symm hne)]
 exact refl _

lemma queued_queueLazy (queue : List (PeerId × List GossipIHaveEntry)) (peer other : PeerId)
    (entry : GossipIHaveEntry) :
    (OrderedMap.get (GossipTopicState.queueLazy queue peer entry) other).getD [] =
      (OrderedMap.get queue other).getD [] ++ if peer = other then [entry] else [] := by
 rw [GossipTopicState.queueLazy,OrderedMap.get_set]
 split_ifs with h
 · subst h
   rfl
 · rw [append_nil]

lemma subset_queueLazies (entry : GossipIHaveEntry) (peers : List PeerId)
    (queue : List (PeerId × List GossipIHaveEntry))
    (peer : PeerId) :
    (OrderedMap.get queue peer).getD [] ⊆
      (OrderedMap.get (GossipTopicState.queueLazies entry peers queue) peer).getD [] := by
 induction peers generalizing queue with
 | nil => exact refl _
 | cons other peers ih =>
  intro old hold
  refine ih _ ?_
  rw [queued_queueLazy]
  exact mem_append_left _ hold

lemma mem_queueLazies (entry : GossipIHaveEntry) {peers : List PeerId} {peer : PeerId} (h : peer ∈ peers)
    (queue : List (PeerId × List GossipIHaveEntry)) :
    entry ∈ (OrderedMap.get (GossipTopicState.queueLazies entry peers queue) peer).getD [] := by
 induction peers generalizing queue with
 | nil => exact absurd h not_mem_nil
 | cons other peers ih =>
  rcases mem_cons.mp h with rfl|hrest
  · refine subset_queueLazies entry peers _ peer ?_
    rw [queued_queueLazy,if_pos rfl]
    exact mem_append_right _ (mem_singleton.mpr rfl)
  · exact ih hrest _

/-- How an event changes the mesh without pushing or announcing a message. Only `grafted` is made eager as a neighbour.
-/
inductive Step (grafted : Option PeerId) (mesh : Mesh) : Mesh → Prop where
  | same : Step grafted mesh mesh
  | forget (peer : PeerId) : Step grafted mesh (mesh.forget peer)
  | activate {peer : PeerId} (h : peer ∉ mesh.neighbors) : Step grafted mesh (mesh.activate peer)
  | replace {peer evicted : PeerId} (h : peer ∉ mesh.neighbors) (hne : evicted ≠ peer) :
    Step grafted mesh ((mesh.forget evicted).activate peer)
  | addLazy (peer : PeerId) : Step grafted mesh (mesh.addLazy peer)
  | addEager {peer : PeerId} (h : grafted = some peer) : Step grafted mesh (mesh.addEager peer)
  | clear : Step grafted mesh mesh.clear

variable {grafted : Option PeerId} {mesh' : Mesh}

lemma Step.covered (hs : Step grafted mesh mesh') (h : mesh.Covered) : mesh'.Covered := by
 cases hs with
 | same => exact h
 | forget peer => exact h.forget peer
 | activate _ => exact h.activate _
 | replace _ _ => exact (h.forget _).activate _
 | addLazy peer => exact h.addLazy peer
 | addEager _ => exact h.addEager _
 | clear => exact nofun

lemma Step.queued_subset (hs : Step grafted mesh mesh') {peer : PeerId} (h : peer ∈ mesh.neighbors)
    (ha : peer ∈ mesh'.neighbors) (hg : grafted ≠ some peer) : mesh.queued peer ⊆ mesh'.queued peer := by
 cases hs with
 | same => exact refl _
 | forget gone =>
  have hne : peer ≠ gone := (mem_delete.mp ha).2
  exact queued_subset_of_delete hne rfl
 | @activate other ho =>
  have hne : peer ≠ other := fun heq=>ho (heq ▸ h)
  exact queued_subset_of_delete hne rfl
 | @replace other evicted ho _ =>
  have hne : peer ≠ other := fun heq=>ho (heq ▸ h)
  have hgo : peer ≠ evicted := by
   rcases mem_add.mp ha with hold|heq
   · exact (mem_delete.mp hold).2
   · exact absurd heq hne
  have hf : mesh.queued peer ⊆ (mesh.forget evicted).queued peer := queued_subset_of_delete hgo rfl
  exact List.Subset.trans hf (queued_subset_of_delete hne rfl)
 | addLazy other => exact refl _
 | @addEager other heq =>
  have hne : peer ≠ other := fun hpeer=>hg (hpeer ▸ heq)
  exact queued_subset_of_delete hne rfl
 | clear => exact absurd ha not_mem_nil

def Scheduled (mesh : Mesh) : Prop := mesh.lazyPushQueue ≠ [] → mesh.dispatchTimerScheduled = true

lemma Scheduled.of_filter (h : mesh.Scheduled) {p : PeerId × List GossipIHaveEntry → Bool}
    (hq : mesh'.lazyPushQueue = mesh.lazyPushQueue.filter p)
    (hf : mesh'.dispatchTimerScheduled = mesh.dispatchTimerScheduled) : mesh'.Scheduled := by
 intro hne
 rw [hf]
 refine h fun hn=>hne ?_
 rw [hq,hn]
 rfl

lemma Step.scheduled (hs : Step grafted mesh mesh') (h : mesh.Scheduled) : mesh'.Scheduled := by
 cases hs with
 | same => exact h
 | forget peer | activate _ => exact h.of_filter rfl rfl
 | @replace peer evicted _ _ =>
  have hf : (mesh.forget evicted).Scheduled := h.of_filter rfl rfl
  exact hf.of_filter rfl rfl
 | addLazy peer => exact h
 | addEager _ => exact h.of_filter rfl rfl
 | clear => exact fun hne=>absurd rfl hne

lemma Step.dispatchTimerScheduled (hs : Step grafted mesh mesh') :
    mesh'.dispatchTimerScheduled = mesh.dispatchTimerScheduled := by
 cases hs
 all_goals rfl

lemma scheduled_push (sender : PeerId) (entry : GossipIHaveEntry) : (mesh.push sender entry).Scheduled := by
 intro hne
 exact Bool.or_eq_true_iff.mpr (.inr (decide_eq_true fun hl=>hne (length_eq_zero_iff.mp hl)))

end Mesh

namespace GossipTopicState

lemma lazyPush_swarm {message : GossipBroadcastMessage} {round : ℕ} (h : message.scope = .swarm round) (sender : PeerId)
    (s : GossipTopicState) : (lazyPush message sender s).2.toMesh = s.toMesh.push sender ⟨message.id, round⟩ ∧
    ((s.toMesh.push sender ⟨message.id, round⟩).dispatchTimerScheduled = true → s.dispatchTimerScheduled = true ∨
      .scheduleTimer lazyDispatchDelayMs .dispatchLazyPush ∈ (lazyPush message sender s).1) := by
 have hp : ∀ flag, flag = (s.dispatchTimerScheduled || decide ((s.announced ⟨message.id,round⟩ sender).length ≠ 0)) →
   ({ s.toMesh with
    lazyPushQueue := s.announced ⟨message.id,round⟩ sender,dispatchTimerScheduled := flag } : Mesh) =
    s.toMesh.push sender ⟨message.id,round⟩ := by
  rintro _ rfl
  rfl
 rw [lazyPush,h]
 dsimp only
 rw [get_bind]
 split_ifs with hs
 · have hf : s.dispatchTimerScheduled =
     (s.dispatchTimerScheduled || decide ((s.announced ⟨message.id,round⟩ sender).length ≠ 0)) := by
    rcases hs with hn|hf
    · simp [hn]
    · simp [hf]
   exact ⟨hp _ hf,fun hpushed=>.inl (hf.trans hpushed)⟩
 · refine ⟨hp true ?_,fun _=>.inr (mem_singleton.mpr rfl)⟩
   simp [(not_or.mp hs).1]

variable {mesh mesh' : Mesh} {s : GossipTopicState} {sender : PeerId}

lemma Admission.step {peer : PeerId} {out : List TopicOutEvent} (h : Admission peer mesh out mesh')
    (grafted : Option PeerId) : Mesh.Step grafted mesh mesh' := by
 cases h with
 | kept _ | refused _ _ _ => exact .same
 | admitted _ hpeer _ _ => exact .activate hpeer
 | replaced _ hpeer he _ _ _ => exact .replace hpeer fun heq=>hpeer (heq ▸ he)

variable (peer : PeerId)

lemma removeActive_step (keep send : Bool) (s : GossipTopicState) (grafted : Option PeerId) :
    Mesh.Step grafted s.toMesh (removeActive peer keep send s).2.toMesh := by
 by_cases h : peer ∈ s.neighbors
 · rw [removeActive_toMesh h]
   exact .forget peer
 · rw [removeActive_of_notMem h]
   exact .same

lemma removeNeighbor_step (s : GossipTopicState) (grafted : Option PeerId) :
    Mesh.Step grafted s.toMesh (removeNeighbor peer s).2.toMesh := by
 have hr:=removeActive_step peer false false s grafted
 rw [removeNeighbor,bind_apply]
 split_ifs
 · rw [bind_apply,pure_apply]
   rw [(refillActiveFromPassive_steady _).1]
   exact hr
 · rw [get_bind]
   split_ifs
   · exact hr
   · exact hr

lemma handleDisconnectMessage_step (alive : Bool) (s : GossipTopicState) (grafted : Option PeerId) :
    Mesh.Step grafted s.toMesh (handleDisconnectMessage peer alive s).2.toMesh := by
 have hr:=removeActive_step peer alive false s grafted
 rw [handleDisconnectMessage,bind_apply]
 split_ifs
 · rw [bind_apply,pure_apply]
   rw [(refillActiveFromPassive_steady _).1]
   exact hr
 · exact hr
 · exact hr

lemma handlePendingNeighbor_toMesh : Keeps toMesh (handlePendingNeighbor peer) := by
 refine .get_bind fun s=>?_
 split_ifs
 · exact (refillActiveFromPassive_steady _).1
 · rfl

lemma hasSeenMessage_toMesh (id : MessageId) (nowMs : ℕ) : Keeps toMesh (hasSeenMessage id nowMs) := by
 intro s
 obtain ⟨seen,hs⟩:=hasSeenMessage_eq id nowMs s
 rw [hs]

lemma handleIHave_toMesh (nowMs : ℕ) (msgs : List GossipIHaveEntry) : Keeps toMesh (handleIHave peer nowMs msgs) := by
 induction msgs with
 | nil => exact .pure []
 | cons message msgs ih =>
  refine .bind (hasSeenMessage_toMesh _ nowMs) fun seen=>.ite ih
   (.bind (.modify fun _=>rfl) fun _=>.bind (fun _=>rfl) fun s=>?_)
  exact .ite ih (.bind (.modify fun _=>rfl) fun _=>.bind ih fun _=>.pure _)

lemma handleSendGraft_cases (id : MessageId) (nowMs : ℕ) (s : GossipTopicState) :
    (grafted (.timerExpired (some (.sendGraft id))) nowMs s = none ∧ (handleSendGraft id nowMs s).2.toMesh = s.toMesh ∧
      (handleSendGraft id nowMs s).1 = []) ∨
    ∃ peer round, grafted (.timerExpired (some (.sendGraft id))) nowMs s = some peer ∧
      (handleSendGraft id nowMs s).2.toMesh = s.toMesh.addEager peer ∧ (handleSendGraft id nowMs s).1 =
        [.sendMessage peer (.graft (some id) round), .scheduleTimer retryGraftTimeoutMs (.sendGraft id)] := by
 rw [handleSendGraft,modify_bind,bind_apply]
 obtain ⟨seen,hs⟩:=hasSeenMessage_eq id nowMs
  { s with graftTimerScheduled := Function.update s.graftTimerScheduled id false }
 have hse : (hasSeenMessage id nowMs
  { s with graftTimerScheduled := Function.update s.graftTimerScheduled id false }).1 =
   (hasSeenMessage id nowMs s).1 := by
  rw [hasSeenMessage_fst,hasSeenMessage_fst]
 rw [hse,hs,grafted]
 split_ifs
 · exact .inl ⟨rfl,rfl,rfl⟩
 · rw [get_bind]
   cases s.missingMessages id with
   | nil => exact .inl ⟨rfl,rfl,rfl⟩
   | cons next rest => exact .inr ⟨next.peer,next.round,rfl,rfl,rfl⟩

section
variable (blake3 : Bytes → MessageId)

lemma handleGraft_toMesh (id : Option MessageId) (s : GossipTopicState) :
    (handleGraft peer id s).2.toMesh = s.toMesh.addEager peer := by
 rw [handleGraft,modify_bind,get_bind]
 cases id.bind (addEager peer s).cache with
 | none => rfl
 | some cached => rfl

/-- A message goes to the eager peers and is announced to the lazy ones, except to the one that it comes from. -/
structure Pushed (sender : PeerId) (id : MessageId) (mesh : Mesh) (out : List TopicOutEvent) (mesh' : Mesh) : Prop where
  queued : ∃ round, mesh' = mesh.push sender ⟨id, round⟩
  sent : ∀ peer ∈ mesh.eagerPeers, peer ≠ sender →
    ∃ message : GossipBroadcastMessage, message.id = id ∧ .sendMessage peer (.gossip message) ∈ out
  scheduled : mesh'.dispatchTimerScheduled = true → mesh.dispatchTimerScheduled = true ∨
    .scheduleTimer lazyDispatchDelayMs .dispatchLazyPush ∈ out

lemma mem_eagerPush {peer : PeerId} (h : peer ∈ s.eagerPeers) (hne : peer ≠ sender)
    (message : GossipBroadcastMessage) : .sendMessage peer (.gossip message) ∈ s.eagerPush message sender :=
 mem_map.mpr ⟨peer,mem_filter.mpr ⟨h,decide_eq_true hne⟩,rfl⟩

variable {round : ℕ}

lemma pushed_of_lazyPush (message : GossipBroadcastMessage) (h : message.scope = .swarm round)
    (sender : PeerId) (s : GossipTopicState) {out : List TopicOutEvent} (hl : (lazyPush message sender s).1 ⊆ out)
    (he : s.eagerPush message sender ⊆ out) :
    Pushed sender message.id s.toMesh out (lazyPush message sender s).2.toMesh := by
 obtain ⟨hm,hf⟩:=lazyPush_swarm h sender s
 refine ⟨⟨round,hm⟩,fun peer hpeer hne=>⟨message,rfl,he (mem_eagerPush hpeer hne message)⟩,fun hs=>?_⟩
 rw [hm] at hs
 exact (hf hs).imp_right fun hme=>hl hme

variable {message : GossipBroadcastMessage}

lemma deliver_pushed (h : message.scope = .swarm round) (peer : PeerId) (nowMs : ℕ) (s : GossipTopicState) :
    Pushed peer message.id s.toMesh (deliver peer message nowMs s).1 (deliver peer message nowMs s).2.toMesh := by
 rw [deliver,h]
 dsimp only [deliveredScope]
 refine pushed_of_lazyPush { message with scope := .swarm (round+1) } rfl peer
  (found { message with scope := .swarm (round+1) } nowMs s) ?_ ?_
 · exact fun _ hm=>mem_cons_of_mem _ (mem_append_right _ hm)
 · exact fun _ hm=>mem_cons_of_mem _ (mem_append_left _ hm)

lemma lazyPush_eagerPush (h : message.scope = .swarm round) (sender : PeerId) (s : GossipTopicState) :
    (lazyPush message sender s).2.eagerPush message (lazyPush message sender s).2.me = s.eagerPush message s.me := by
 have hm:=(lazyPush_swarm h sender s).1
 rw [eagerPush,hm]
 rfl

lemma broadcast_pushed {scope : Option GossipBroadcastScope} (h : broadcastScope scope = .swarm round)
    (payload : Bytes) (nowMs : ℕ) (s : GossipTopicState) :
    Pushed s.me (blake3 payload) s.toMesh (broadcast blake3 payload scope nowMs s).1
      (broadcast blake3 payload scope nowMs s).2.toMesh := by
 rw [broadcast]
 rw [h]
 dsimp only
 rw [modify_bind,get_bind,bind_apply,get_bind,lazyPush_eagerPush rfl]
 refine pushed_of_lazyPush ⟨blake3 payload,payload,.swarm round⟩ rfl s.me
  (storeGossip ⟨blake3 payload,payload,.swarm round⟩ nowMs s) ?_ ?_
 · exact fun _ hm=>mem_append_left _ hm
 · exact fun _ hm=>mem_append_right _ hm

def pushes (event : TopicInEvent) (s : GossipTopicState) (out : List TopicOutEvent) : Option (PeerId × MessageId) :=
  match event with
  | .command (.broadcast payload scope) =>
      if broadcastScope scope = .neighbors then none else some (s.me, blake3 payload)
  | .recvMessage peer (.gossip message) =>
    if message.scope ≠ .neighbors ∧ out.any TopicOutEvent.isReceived then
      some (peer, message.id)
    else none
  | _ => none

lemma Pushed.mono {id : MessageId} {out out' : List TopicOutEvent}
    (h : Pushed sender id mesh out mesh') (hs : out ⊆ out') : Pushed sender id mesh out' mesh' := by
 refine ⟨h.queued,fun peer hpeer hne=>?_,fun hse=>(h.scheduled hse).imp_right fun hm=>hs hm⟩
 obtain ⟨message,hid,hm⟩:=h.sent peer hpeer hne
 exact ⟨message,hid,hs hm⟩

lemma pushes_append {rest : List TopicOutEvent} (hrest : rest = [] ∨ rest = [scheduleShuffle]) (event : TopicInEvent)
    (s : GossipTopicState) (out : List TopicOutEvent) :
    pushes blake3 event s (out ++ rest) = pushes blake3 event s out := by
 rcases hrest with rfl|rfl
 · rw [append_nil]
 · unfold pushes
   split
   · rfl
   · simp [scheduleShuffle,TopicOutEvent.isReceived]
   · rfl

/-- What an event other than the timer of the announcements does to the mesh: it pushes a message or changes the
peers. -/
inductive Spread (event : TopicInEvent) (nowMs : ℕ) (s : GossipTopicState) (out : List TopicOutEvent) (mesh' : Mesh) :
    Prop where
  | push {sender : PeerId} {id : MessageId} (hpushes : pushes blake3 event s out = some (sender, id))
    (hpushed : Pushed sender id s.toMesh out mesh')
  | step (hpushes : pushes blake3 event s out = none) (hstep : Mesh.Step (grafted event nowMs s) s.toMesh mesh')

lemma deliver_received (h : message.scope = .swarm round) (peer : PeerId) (nowMs : ℕ) (s : GossipTopicState) :
    (deliver peer message nowMs s).1.any TopicOutEvent.isReceived = true := by
 rw [deliver,h]
 rfl

lemma handleGossipMessage_spread (peer : PeerId) (message : GossipBroadcastMessage) (nowMs : ℕ) (s : GossipTopicState) :
    Spread blake3 (.recvMessage peer (.gossip message)) nowMs s (handleGossipMessage blake3 peer message nowMs s).1
      (handleGossipMessage blake3 peer message nowMs s).2.toMesh := by
 obtain ⟨seen,hse⟩:=hasSeenMessage_eq message.id nowMs s
 rw [handleGossipMessage]
 split_ifs with hid
 · exact .step (by simp [pushes,pure_apply]) .same
 rw [bind_apply,hse]
 split_ifs
 · exact .step (by simp [pushes,bind_apply,pure_apply,TopicOutEvent.isReceived]) (.addLazy peer)
 · cases hs : message.scope with
   | neighbors =>
    refine .step (by simp [pushes,hs]) ?_
    rw [deliver,hs]
    exact .same
   | swarm round =>
    refine .push ?_ (deliver_pushed hs peer nowMs { s with seenMessages := seen })
    have ho : message.scope ≠ .neighbors := by
     rw [hs]
     simp
    rw [pushes,if_pos ⟨ho,deliver_received hs peer nowMs _⟩]

variable {event : TopicInEvent}

lemma Spread.steady {out : List TopicOutEvent} {nowMs : ℕ} {t : GossipTopicState}
    (hp : pushes blake3 event s out = none)
    (h : t.toMesh = s.toMesh) : Spread blake3 event nowMs s out t.toMesh := by
 rw [h]
 exact .step hp .same

lemma handleMessage_spread (peer : PeerId) (message : GossipTopicMessage) (nowMs : ℕ) (s : GossipTopicState) :
    Spread blake3 (.recvMessage peer message) nowMs s (handleMessage blake3 peer message nowMs s).1
      (handleMessage blake3 peer message nowMs s).2.toMesh := by
 have hs:=mesh_passiveClosed s
 cases message with
 | join peerData => exact .step rfl ((addActive_admission peer peerData .high true s).step _)
 | neighbor priority peerData =>
  exact .step rfl ((addActive_admission peer peerData priority (decide (peer ∉ s.pendingNeighborRequests))
   { s with pendingNeighborRequests := delete s.pendingNeighborRequests peer }).step _)
 | disconnect alive respond => exact .step rfl (handleDisconnectMessage_step peer alive s _)
 | forwardJoin joining ttl => exact .steady blake3 rfl (hs.handleForwardJoin rfl peer fun _=>trivial).1
 | shuffle origin nodes ttl => exact .steady blake3 rfl (hs.handleShuffle rfl peer nodes fun _=>trivial).1
 | shuffleReply nodes =>
  exact .steady blake3 rfl ((hs.addPassives nodes).append hs.refillActiveFromPassive s rfl).1
 | prune => exact .step rfl (.addLazy peer)
 | graft id round =>
  refine .step rfl ?_
  rw [handleMessage,handleGraft_toMesh]
  exact .addEager rfl
 | ihave msgs => exact .steady blake3 rfl (handleIHave_toMesh peer nowMs msgs s)
 | gossip message => exact handleGossipMessage_spread blake3 peer message nowMs s

lemma broadcast_spread (payload : Bytes) (scope : Option GossipBroadcastScope) (nowMs : ℕ) (s : GossipTopicState) :
    Spread blake3 (.command (.broadcast payload scope)) nowMs s (broadcast blake3 payload scope nowMs s).1
      (broadcast blake3 payload scope nowMs s).2.toMesh := by
 cases hs : broadcastScope scope with
 | neighbors =>
  refine .step (by simp [pushes,hs]) ?_
  rw [broadcast]
  rw [hs]
  exact .same
 | swarm round => exact .push (by simp [pushes,hs]) (broadcast_pushed blake3 hs payload nowMs s)

lemma dismiss_keeps (peers : List PeerId) : Keeps (fun s => (s.me, s.dispatchTimerScheduled)) (dismiss peers) := by
 induction peers with
 | nil => exact .pure []
 | cons peer peers ih =>
  refine .bind (.modify fun _=>rfl) fun _=>.bind ?_ fun _=>.bind ih fun _=>.pure _
  exact (draws_disconnectPeer peer false).keeps fun _ _=>rfl

lemma quit_toMesh (s : GossipTopicState) : (quit s).2.toMesh = s.toMesh.clear := by
 obtain ⟨hme,hf⟩:=Prod.mk.inj (dismiss_keeps s.neighbors s)
 change Mesh.mk (dismiss s.neighbors s).2.me [] [] [] [] (dismiss s.neighbors s).2.dispatchTimerScheduled = _
 rw [hme,hf]
 rfl

lemma handleEvent_spread (hd : event ≠ .timerExpired (some .dispatchLazyPush)) (nowMs : ℕ)
    (s : GossipTopicState) :
    Spread blake3 event nowMs s (handleEvent blake3 event nowMs s).1 (handleEvent blake3 event nowMs s).2.toMesh := by
 cases event with
 | recvMessage peer message => exact handleMessage_spread blake3 peer message nowMs s
 | command command =>
  cases command with
  | join peers => exact .step rfl .same
  | broadcast payload scope => exact broadcast_spread blake3 payload scope nowMs s
  | quit =>
   refine .step rfl ?_
   rw [handleEvent,handleCommand,quit_toMesh]
   exact .clear
 | peerDisconnected peer => exact .step rfl (removeNeighbor_step peer s _)
 | updatePeerData peerData => exact .step rfl .same
 | timerExpired timer =>
  rcases timer with _|timer
  · exact .step rfl .same
  · cases timer with
    | dispatchLazyPush => exact absurd rfl hd
    | pendingNeighbor peer =>
     refine .step rfl ?_
     rw [handleEvent,handleTimer,handlePendingNeighbor_toMesh]
     exact .same
    | sendGraft id =>
     refine .step rfl ?_
     rw [handleEvent,handleTimer]
     rcases handleSendGraft_cases id nowMs s with ⟨_,hm,_⟩|⟨peer,_,hg,hm,_⟩
     · rw [hm]
       exact .same
     · rw [hm]
       exact .addEager hg
    | doShuffle =>
     exact .steady blake3 rfl
      ((mesh_passiveClosed s).doShuffle.append (.pure (plain_scheduleTimer shuffleIntervalMs .doShuffle)) s rfl).1

lemma handle_spread (hd : event ≠ .timerExpired (some .dispatchLazyPush)) (nowMs : ℕ) (s : GossipTopicState) :
    Spread blake3 event nowMs (s.expireCaches nowMs) (handle blake3 event nowMs s).1
      (handle blake3 event nowMs s).2.toMesh := by
 obtain ⟨rest,hrest,ho,scheduled,hs⟩:=handle_cases blake3 event nowMs s
 rw [ho,hs]
 cases handleEvent_spread blake3 hd nowMs (s.expireCaches nowMs) with
 | push hp hpushed =>
  refine .push ?_ (hpushed.mono (subset_append_left _ _))
  rw [pushes_append blake3 hrest,hp]
 | step hp hst =>
  refine .step ?_ hst
  rw [pushes_append blake3 hrest,hp]

end

end GossipTopicState

end Enlace.Gossip
