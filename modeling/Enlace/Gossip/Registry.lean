import Enlace.Gossip.Actor

set_option autoImplicit false

/-! The table of the subscriptions of a `GossipActor` over its runs. -/
namespace Enlace.Gossip
open ByteString Transition Option Function OrderedMap OrderedSet

namespace IrohGossipSubscription

def place (s : IrohGossipSubscription) : TopicId × Bool := (s.topicId, s.closed)

/-- What only `close` and a failure change. -/
def core (s : IrohGossipSubscription) : (TopicId × Bool) × Bool := (s.place, s.events.failed)

lemma core_push (event : IrohGossipEvent) (s : IrohGossipSubscription) : (s.push event).core = s.core := by
 have hq : (s.events.push event).failed = s.events.failed := by
  unfold AsyncQueue.push
  split_ifs
  · rfl
  · rfl
 unfold push
 split_ifs
 · rfl
 · cases event with
   | neighborUp tid peer | neighborDown tid peer | join tid peerData
   | message tid src id payload scope => exact congrArg (Prod.mk s.place) hq

lemma core_joined (s : IrohGossipSubscription) : s.joined.core = s.core := by
 unfold joined
 split_ifs
 · rfl
 · rfl

lemma core_awaitPeer (peer : PeerId) (s : IrohGossipSubscription) : (s.awaitPeer peer).core = s.core := by
 unfold awaitPeer
 split_ifs
 · rfl
 · rfl

end IrohGossipSubscription

variable {f : IrohGossipSubscription → IrohGossipSubscription} {m n : ℕ}

namespace GossipActor
open IrohGossipSubscription (place core_push core_joined core_awaitPeer)

/-- The open subscriptions are those in the table, each with its topic. -/
structure Registered (a : GossipActor) : Prop where
  subscribed : ∀ topicId n, n ∈ a.subscribers topicId → a.IsOpen n ∧ (a.handles n).topicId = topicId
  listed : ∀ n, a.IsOpen n → n ∈ a.subscribers (a.handles n).topicId

section
variable {a b : GossipActor} {nowMs : ℕ}

lemma handles_onHandle_self (n : ℕ) (f : IrohGossipSubscription → IrohGossipSubscription) (a : GossipActor) :
    (a.onHandle n f).handles n = f (a.handles n) := update_self ..

lemma handles_onHandle_of_ne (hne : m ≠ n) (f : IrohGossipSubscription → IrohGossipSubscription)
    (a : GossipActor) : (a.onHandle n f).handles m = a.handles m := update_of_ne hne ..

lemma handles_onSubscribers (subscribers : List ℕ) (f : IrohGossipSubscription → IrohGossipSubscription) (n : ℕ)
    (a : GossipActor) :
    (a.onSubscribers subscribers f).handles n = if n ∈ subscribers then f (a.handles n) else a.handles n := by
 change (if has subscribers n = true then _ else _) = _
 simp only [has_eq_true]

def registry (a : GossipActor) : List (TopicId × List ℕ) × ℕ × (ℕ → TopicId × Bool) :=
  (a.subscriptions, a.nextHandle, fun n => (a.handles n).place)

def service (a : GossipActor) : Bool × Bool × (ℕ → Bool) :=
  (a.closed, a.accepting, fun n => (a.handles n).events.failed)

def core (a : GossipActor) : (List (TopicId × List ℕ) × ℕ × (ℕ → TopicId × Bool)) × Bool × Bool × (ℕ → Bool) :=
  (a.registry, a.service)

section
variable {γ : Type} (g : IrohGossipSubscription → γ) (hf : ∀ s, g (f s) = g s)
include hf

lemma onHandle_keeps (n m : ℕ) (a : GossipActor) : g ((a.onHandle n f).handles m) = g (a.handles m) := by
 by_cases heq : m = n
 · rw [heq,handles_onHandle_self,hf]
 · rw [handles_onHandle_of_ne heq]

lemma onSubscribers_keeps (subscribers : List ℕ) (n : ℕ) (a : GossipActor) :
    g ((a.onSubscribers subscribers f).handles n) = g (a.handles n) := by
 rw [handles_onSubscribers]
 split_ifs
 · exact hf _
 · rfl

end

lemma core_handles {handles : ℕ → IrohGossipSubscription} (h : ∀ n, (handles n).core = (a.handles n).core) :
    ({ a with handles := handles } : GossipActor).core = a.core := by
 have hp : (fun n=>(handles n).place) = fun n=>(a.handles n).place := funext fun n=>congrArg Prod.fst (h n)
 have hfa : (fun n=>(handles n).events.failed) = fun n=>(a.handles n).events.failed :=
  funext fun n=>congrArg Prod.snd (h n)
 simp only [core,registry,service,hp,hfa]

lemma core_onHandle (hf : ∀ s, (f s).core = s.core) (n : ℕ) (a : GossipActor) : (a.onHandle n f).core = a.core :=
 core_handles (onHandle_keeps _ hf n · a)

lemma core_onSubscribers (hf : ∀ s, (f s).core = s.core) (subscribers : List ℕ) (a : GossipActor) :
    (a.onSubscribers subscribers f).core = a.core :=
 core_handles (onSubscribers_keeps _ hf subscribers · a)

lemma core_emitEvent (tid : TopicId) (event : GossipProtocolTopicEvent) (a : GossipActor) :
    (a.emitEvent tid event).core = a.core := by
 cases event with
 | neighborUp peer => exact (core_onSubscribers (core_push _) _ _).trans (core_onSubscribers (core_push _) _ a)
 | neighborDown peer | received src id payload scope => exact core_onSubscribers (core_push _) _ a

namespace Registered

section
variable (h : a.Registered)
include h

lemma of_eq (heq : b.registry = a.registry) : b.Registered := by
 simp only [registry,Prod.mk.injEq] at heq
 obtain ⟨hsu,hne,hpl⟩:=heq
 have hp : ∀ n, (b.handles n).topicId = (a.handles n).topicId ∧ (b.handles n).closed = (a.handles n).closed :=
  fun n=>Prod.mk.inj (congrFun hpl n)
 have hs : ∀ tid, b.subscribers tid = a.subscribers tid := by
  intro tid
  rw [subscribers,hsu,subscribers]
 have hopen : ∀ n, b.IsOpen n ↔ a.IsOpen n := by
  intro n
  rw [IsOpen,hne,(hp n).2,IsOpen]
 constructor
 · intro tid n hn
   rw [hs] at hn
   rw [hopen,(hp n).1]
   exact h.subscribed tid n hn
 · intro n hn
   rw [hs,(hp n).1]
   exact h.listed n ((hopen n).mp hn)

lemma of_core (heq : b.core = a.core) : b.Registered := h.of_eq (congrArg Prod.fst heq)

lemma of_place {handles : ℕ → IrohGossipSubscription} (hp : ∀ n, (handles n).place = (a.handles n).place) :
    ({ a with handles := handles } : GossipActor).Registered :=
 h.of_eq (by simp only [registry,hp])

lemma ne_of_mem {tid : TopicId} (hne : tid ≠ (a.handles n).topicId)
    (hm : m ∈ a.subscribers tid) : m ≠ n := by
 rintro rfl
 exact hne (h.subscribed tid m hm).2.symm

lemma leave (n : ℕ) {subscriptions : List (TopicId × List ℕ)}
    (hme : ∀ tid m, m ∈ (get subscriptions tid).getD [] ↔ m ∈ a.subscribers tid ∧ m ≠ n) :
    ({ a.onHandle n (·.close) with subscriptions := subscriptions } : GossipActor).Registered := by
 constructor
 · intro tid m hm
   obtain ⟨hin,hne⟩:=(hme tid m).mp hm
   obtain ⟨⟨hlt,hopen⟩,ht⟩:=h.subscribed tid m hin
   have hh : (a.onHandle n (·.close)).handles m = a.handles m := handles_onHandle_of_ne hne _ a
   exact ⟨⟨hlt,by rw [hh]; exact hopen⟩,by rw [hh]; exact ht⟩
 · rintro m ⟨hlt,hopen⟩
   have hne : m ≠ n := by
    rintro rfl
    rw [handles_onHandle_self] at hopen
    cases hopen
   rw [handles_onHandle_of_ne hne] at hopen
   refine (hme _ m).mpr ⟨?_,hne⟩
   rw [handles_onHandle_of_ne hne]
   exact h.listed m ⟨hlt,hopen⟩

end

end Registered

variable (blake3 : Bytes → MessageId)

lemma closeSubscription_cases (h : a.Registered) (n : ℕ) :
    a.closeSubscription blake3 n nowMs = a ∧ (∀ tid, n ∉ a.subscribers tid) ∨
    ∃ subscriptions, (∀ tid m, m ∈ (get subscriptions tid).getD [] ↔ m ∈ a.subscribers tid ∧ m ≠ n) ∧
      (a.closeSubscription blake3 n nowMs = { a.onHandle n (·.close) with subscriptions := subscriptions } ∧
          (∀ tid, a.subscribers tid ≠ [] → (get subscriptions tid).getD [] ≠ []) ∨
        (get subscriptions (a.handles n).topicId).getD [] = [] ∧
        a.closeSubscription blake3 n nowMs = GossipActor.handle blake3 (.command (a.handles n).topicId .quit) nowMs
          { a.onHandle n (·.close) with subscriptions := subscriptions }) := by
 unfold closeSubscription
 split_ifs with hc
 · refine .inl ⟨rfl,fun tid hme=>?_⟩
   rw [(h.subscribed tid n hme).1.2] at hc
   cases hc
 · refine .inr ?_
   dsimp only
   cases hg : get a.subscriptions (a.handles n).topicId with
   | none =>
    refine ⟨a.subscriptions,fun tid m=>⟨fun hm=>⟨hm,?_⟩,fun hm=>hm.1⟩,.inl ⟨rfl,fun _ hne=>hne⟩⟩
    rintro rfl
    have ht:=(h.subscribed tid m hm).2
    rw [← ht,hg] at hm
    exact absurd hm List.not_mem_nil
   | some subscriptions =>
    have hin : a.subscribers (a.handles n).topicId = subscriptions := by rw [subscribers,hg]; rfl
    by_cases hrest : (delete subscriptions n).length ≠ 0
    · refine ⟨set a.subscriptions (a.handles n).topicId (delete subscriptions n),?_,.inl ?_⟩
      · intro tid m
        rw [get_set]
        split_ifs with heq
        · rw [← heq,hin]
          exact mem_delete
        · exact ⟨fun hm=>⟨hm,h.ne_of_mem (Ne.symm heq) hm⟩,fun hm=>hm.1⟩
      · refine ⟨if_pos hrest,fun tid hne=>?_⟩
        rw [get_set]
        split_ifs
        · exact fun hn=>hrest (by rw [getD_some] at hn; rw [hn]; rfl)
        · exact hne
    · refine ⟨delete a.subscriptions (a.handles n).topicId,?_,.inr ?_⟩
      · intro tid m
        rw [get_delete]
        split_ifs with heq
        · rw [← heq,hin,← mem_delete,List.eq_nil_of_length_eq_zero (not_not.mp hrest)]
          rfl
        · exact ⟨fun hm=>⟨hm,h.ne_of_mem (Ne.symm heq) hm⟩,fun hm=>hm.1⟩
      · refine ⟨?_,if_neg hrest⟩
        rw [get_delete,if_pos rfl]
        rfl

lemma mem_subscribers_closeSubscription (h : a.Registered) (n : ℕ) (tid : TopicId)
    (m : ℕ) : m ∈ (a.closeSubscription blake3 n nowMs).subscribers tid ↔ m ∈ a.subscribers tid ∧ m ≠ n := by
 rcases closeSubscription_cases blake3 h n with ⟨heq,hn⟩|⟨subs,hme,⟨heq,_⟩|⟨_,heq⟩⟩
 · rw [heq]
   refine ⟨fun hm=>⟨hm,?_⟩,fun hm=>hm.1⟩
   rintro rfl
   exact hn tid hm
 · rw [heq]
   exact hme tid m
 · rw [heq]
   exact hme tid m

lemma mem_subscribers_addSubscriber (tid other : TopicId) (n : ℕ) (a : GossipActor) :
    n ∈ (a.addSubscriber tid).subscribers other ↔ n ∈ a.subscribers other ∨ tid = other ∧ n = a.nextHandle := by
 change n ∈ (get (set _ _ _) other).getD [] ↔ _
 rw [get_set]
 split_ifs with heq
 · subst heq
   simp
 · simp [heq,subscribers]

namespace Registered

section
variable (h : a.Registered)
include h

lemma closeSubscription (n : ℕ) : (a.closeSubscription blake3 n nowMs).Registered := by
 rcases closeSubscription_cases blake3 h n with ⟨heq,_⟩|⟨subs,hm,⟨heq,_⟩|⟨_,heq⟩⟩
 · rw [heq]
   exact h
 · rw [heq]
   exact h.leave n hm
 · rw [heq]
   exact (h.leave n hm).of_eq rfl

lemma addSubscriber (tid : TopicId) : (a.addSubscriber tid).Registered := by
 have hs : (a.addSubscriber tid).handles a.nextHandle = .create tid := update_self ..
 have hh : ∀ n, n ≠ a.nextHandle → (a.addSubscriber tid).handles n = a.handles n :=
  fun n hne=>update_of_ne hne ..
 constructor
 · intro other n hn
   rcases (mem_subscribers_addSubscriber tid other n a).mp hn with hold|⟨rfl,rfl⟩
   · obtain ⟨⟨hlt,hopen⟩,ht⟩:=h.subscribed other n hold
     rw [IsOpen,hh n hlt.ne]
     exact ⟨⟨Nat.lt_succ_of_lt hlt,hopen⟩,ht⟩
   · rw [IsOpen,hs]
     exact ⟨⟨Nat.lt_succ_self _,rfl⟩,rfl⟩
 · rintro n ⟨hlt,hopen⟩
   by_cases heq : n = a.nextHandle
   · rw [heq,hs]
     exact (mem_subscribers_addSubscriber _ _ _ _).mpr (.inr ⟨rfl,rfl⟩)
   · rw [hh n heq] at hopen ⊢
     have hl : n < a.nextHandle := lt_of_le_of_ne (Nat.lt_succ_iff.mp hlt) heq
     exact (mem_subscribers_addSubscriber _ _ n _).mpr (.inl (h.listed n ⟨hl,hopen⟩))

end

end Registered

lemma core_onPeers (m : PeersM (Option PeerId)) (a : GossipActor) : (a.onPeers blake3 m nowMs).core = a.core := by
 obtain ⟨peers,state,todo,heq⟩:=onPeers_eq blake3 m nowMs a
 rw [heq]
 rfl

lemma core_perform (decode : Bytes → Option String) (fail : Option ℕ) (task : Task) (a : GossipActor) :
    (∃ n, task = .closeSubscription n) ∨ (a.perform blake3 decode fail task nowMs).core = a.core := by
 match task with
 | .closeSubscription n => exact .inl ⟨n,rfl⟩
 | .peerReady peer | .out (.disconnectPeer peer) | .out (.scheduleTimer _ _ _) => exact .inr rfl
 | .out (.sendMessage peer tid msg) => exact .inr (core_onPeers blake3 _ a)
 | .out (.emitEvent tid event) => exact .inr (core_emitEvent tid event a)
 | .out (.peerData peer peerData) =>
  refine .inr ?_
  change (a.updatePeerData decode peer peerData).core = a.core
  unfold updatePeerData
  split
  · rfl
  · rfl

namespace Registered

lemma perform (decode : Bytes → Option String) (h : a.Registered)
    (fail : Option ℕ) (task : Task) : (a.perform blake3 decode fail task nowMs).Registered := by
 rcases core_perform blake3 decode fail task a with ⟨n,rfl⟩|heq
 · exact h.closeSubscription blake3 n
 · exact h.of_core heq

lemma close (h : a.Registered) : a.close.Registered := by
 unfold GossipActor.close
 split_ifs
 · exact h
 · exact h.of_eq rfl

lemma react {next : GossipActor} {event : GossipActorEvent} (h : a.Registered)
    (hs : a.react blake3 event nowMs = some next) : next.Registered := by
 cases event with
 | work fail => cases hs
 | subscribe tid bootstrap =>
  cases hs
  exact (h.addSubscriber tid).of_eq rfl
 | closeSubscription n =>
  obtain ⟨_,rfl⟩:=of_guard hs
  exact h.closeSubscription blake3 n
 | joined n =>
  obtain ⟨_,rfl⟩:=of_guard hs
  exact h.of_core (core_onHandle core_joined n a)
 | joinPeer n peer =>
  obtain ⟨_,rfl⟩:=of_guard hs
  exact h.of_core (core_onHandle (core_awaitPeer peer.endpointId) n a)
 | joinPeers n peers | broadcast n payload scope | timerExpired tid timer
 | message id conn tid msg =>
  obtain ⟨_,rfl⟩:=of_guard hs
  exact h.of_eq rfl
 | awaitPeer n peer =>
  obtain ⟨_,rfl⟩:=of_guard hs
  exact h.of_core (core_onHandle (core_awaitPeer peer) n a)
 | accepted peer conn fail =>
  obtain ⟨_,rfl⟩:=of_guard hs
  exact (h.of_core (core_onPeers blake3 (PeerTable.accepted a.closed fail peer conn) a)).of_eq rfl
 | acceptRejected =>
  obtain ⟨_,rfl⟩:=of_guard hs
  have hfa : (if a.closed = true then a else a.failAll).Registered := by
   split_ifs
   · exact h
   · exact h.of_place (onSubscribers_keeps (f := (·.fail)) place (fun _=>rfl) _ · a)
  exact hfa.of_eq rfl
 | dialed id number conn fail | dialFailed id number | readFailed id conn =>
  obtain ⟨_,rfl⟩:=of_guard hs
  exact h.of_core (core_onPeers blake3 _ a)
 | close =>
  cases hs
  exact h.close

end Registered

lemma step_cases {blake3 : Bytes → MessageId} {decode : Bytes → Option String} {next : GossipActor}
    {event : GossipActorEvent × ℕ} (h : a.step blake3 decode event = some next) :
    a.todo = [] ∧ a.react blake3 event.1 event.2 = some next ∨
    ∃ task todo fail, a.todo = task :: todo ∧ event.1 = .work fail ∧
      next = { a with todo := todo }.perform blake3 decode fail task event.2 := by
 unfold step at h
 split at h
 case h_1 hi => exact .inl ⟨hi,h⟩
 case h_2 task todo fail ht hevent => exact .inr ⟨task,todo,fail,ht,hevent,(some.inj h).symm⟩
 case h_3 => cases h

lemma registered_create (s : GossipProtocolState) : (create s).Registered :=
 ⟨nofun,fun n hn=>absurd hn.1 (Nat.not_lt_zero n)⟩

end

end GossipActor

end Enlace.Gossip
