import Enlace.Gossip.Notices
import Enlace.Gossip.PushSets

set_option autoImplicit false

/-! Where a topic writes to its own peer. -/
namespace Enlace.Gossip
open ByteString Stateful Transition List OrderedSet

namespace GossipTopicState
open Mesh.Tight

/-- Every peer that a topic may write to without being asked. -/
def known (s : GossipTopicState) : List PeerId :=
  s.neighbors ++ s.passivePeers ++ s.pendingNeighborRequests ++ s.eagerPeers ++ s.lazyPeers ++
    s.lazyPushQueue.map Prod.fst

/-- The topic knows its own peer nowhere. -/
def Foreign (me : PeerId) (s : GossipTopicState) : Prop :=
  s.me = me ∧ me ∉ s.known ∧ ∀ id, ∀ source ∈ s.missingMessages id, source.peer ≠ me

section
variable {me : PeerId} {s t : GossipTopicState}

lemma Foreign.of_subset (h : s.Foreign me) (hme : t.me = s.me) (hk : ∀ peer ∈ t.known, peer ∈ s.known ∨ peer ≠ me)
    (hm : ∀ id, ∀ source ∈ t.missingMessages id, source ∈ s.missingMessages id ∨ source.peer ≠ me) : t.Foreign me := by
 refine ⟨hme.trans h.1,fun hmem=>?_,fun id source hs=>?_⟩
 · rcases hk me hmem with hold|hne
   · exact h.2.1 hold
   · exact hne rfl
 · rcases hm id source hs with hold|hne
   · exact h.2.2 id source hold
   · exact hne

lemma foreign_viewsClosed (me : PeerId) :
    ViewsClosed me (· ≠ me) (Foreign me) fun event => ∀ msg, event ≠ .sendMessage me msg where
 self hs := hs.1
 neighbor hs hpeer heq := hs.2.1 (by subst heq; simp [known,hpeer])
 passive hs hpeer heq := hs.2.1 (by subst heq; simp [known,hpeer])
 asked hs hpeer := by
  refine hs.of_subset rfl (fun other ho=>?_) fun _ _ hso=>.inl hso
  simp only [known,mem_append,mem_add] at ho ⊢
  grind
 answered peer hs := by
  refine hs.of_subset rfl (fun other ho=>?_) fun _ _ hso=>.inl hso
  simp only [known,mem_append,mem_delete] at ho ⊢
  grind
 shelved {s peer} hs hpeer _ := by
  obtain ⟨random,passive,he,hsu⟩:=evictPassive_eq s
  rw [he]
  refine hs.of_subset rfl (fun other ho=>?_) fun _ _ hso=>.inl hso
  simp only [known,mem_append,mem_add] at ho ⊢
  grind
 dropped peer hs := by
  refine hs.of_subset rfl (fun other ho=>?_) fun _ _ hso=>.inl hso
  simp only [known,mem_append,mem_delete] at ho ⊢
  grind
 forgotten peer hs := by
  refine hs.of_subset rfl (fun other ho=>?_) fun _ _ hso=>.inl (mem_filter.mp hso).1
  simp only [known,forget,removeMissingFromPeer,mem_append,mem_delete,mem_keys_delete] at ho ⊢
  grind
 activated _ hs hpeer := by
  refine hs.of_subset rfl (fun other ho=>?_) fun _ _ hso=>.inl hso
  simp only [known,activate,addEager,mem_append,mem_add,mem_delete,mem_keys_delete] at ho ⊢
  grind
 cleared hs := ⟨hs.1,not_mem_nil,nofun⟩
 sent hpeer _ _ heq := hpeer (by cases heq; rfl)
 told hevent _ _ heq := by
  subst heq
  exact hevent.elim
 parted hevent _ heq := by
  subst heq
  exact hevent.elim

lemma foreign_spreadClosed (nowMs : ℕ) (me : PeerId) :
    SpreadClosed nowMs (· ≠ me) (Foreign me) fun event => ∀ msg, event ≠ .sendMessage me msg where
 eager hs hpeer heq := hs.2.1 (by subst heq; simp [known,hpeer])
 queued hs hpeer heq := hs.2.1 (by subst heq; exact mem_append_right _ hpeer)
 looked hs _ _ := hs
 eagerAdded hs hpeer := by
  refine hs.of_subset rfl (fun other ho=>?_) fun _ _ hso=>.inl hso
  simp only [known,addEager,mem_append,mem_add,mem_delete,mem_keys_delete] at ho ⊢
  grind
 lazyAdded hs hpeer := by
  refine hs.of_subset rfl (fun other ho=>?_) fun _ _ hso=>.inl hso
  simp only [known,addLazy,mem_append,mem_add,mem_delete] at ho ⊢
  grind
 stored _ hs := hs
 announced {s} entry sender _ hs := by
  refine hs.of_subset rfl (fun other ho=>.inl ?_) fun _ _ hso=>.inl hso
  rcases mem_append.mp ho with hold|hq
  · exact mem_append_left _ hold
  · rcases keys_queueLazies hq with hl|hq
    · exact mem_append_left _ (mem_append_right _ (mem_filter.mp hl).1)
    · exact mem_append_right _ hq
 dispatched {s} hs := by
  refine hs.of_subset rfl (fun other ho=>.inl ?_) fun _ _ hso=>.inl hso
  rcases mem_append.mp ho with hold|hq
  · exact mem_append_left _ hold
  · exact absurd hq not_mem_nil
 sought _ _ hs hsu := hs.of_subset rfl (fun _ hm=>.inl hm) fun id _ hso=>.inl (hsu id hso)
 sent hpeer _ heq := hpeer (by cases heq; rfl)
 timed _ heq := by cases heq

lemma answers_of_attached {blake3 : Bytes → MessageId} {event : TopicInEvent} {nowMs : ℕ} {peer : PeerId}
    (h : attached blake3 event nowMs s = some peer) :
    s.Answers event peer ∨ ∃ id, ∃ source ∈ s.missingMessages id, source.peer = peer := by
 unfold attached at h
 split at h
 · exact .inl (Option.some.inj h).symm
 · split_ifs at h
   exact .inl (Option.some.inj h).symm
 · unfold grafted at h
   split at h
   · exact .inl (Option.some.inj h).symm
   · split_ifs at h
     obtain ⟨source,hs,rfl⟩:=Option.map_eq_some_iff.mp h
     exact .inr ⟨_,source,mem_of_mem_head? hs,rfl⟩
   · cases h

lemma Foreign.addMissing (h : s.Foreign me) {peer : PeerId} (hpeer : peer ≠ me) (msg : GossipIHaveEntry) :
    (s.addMissing peer msg).Foreign me := by
 refine h.of_subset rfl (fun _ hm=>.inl hm) fun id source hs=>?_
 change source ∈ Function.update s.missingMessages msg.id (s.missingMessages msg.id ++ [⟨peer,msg.round⟩]) id at hs
 by_cases heq : id = msg.id
 · subst heq
   rw [Function.update_self] at hs
   rcases mem_append.mp hs with hold|hn
   · exact .inl hold
   · rw [mem_singleton.mp hn]
     exact .inr hpeer
 · rw [Function.update_of_ne heq] at hs
   exact .inl hs

lemma handleEvent_foreign (blake3 : Bytes → MessageId) (hs : s.Foreign me) {event : TopicInEvent} (nowMs : ℕ)
    (hme : ¬s.Answers event me) : (handleEvent blake3 event nowMs s).2.Foreign me ∧
      ∀ out ∈ (handleEvent blake3 event nowMs s).1, ∀ msg, out ≠ .sendMessage me msg := by
 cases hsp : event.spreads with
 | false =>
  refine (foreign_viewsClosed me).handleEvent blake3 hsp nowMs hs fun peer hpeer heq=>?_
  exact hme (heq ▸ hpeer)
 | true =>
  refine (foreign_spreadClosed nowMs me).handleEvent blake3 hsp hs (fun peer hpeer heq=>?_) ?_ ?_
  · rw [heq] at hpeer
    rcases answers_of_attached hpeer with ha|⟨id,source,hso,hsa⟩
    · exact hme ha
    · exact hs.2.2 id source hso hsa
  · rintro peer msgs rfl s msg hs
    exact hs.addMissing (fun heq=>hme heq.symm) msg
  · exact fun _ _ _ _ _ _ heq=>by cases heq

end

end GossipTopicState

namespace NeighborLog
open GossipTopicState

/-- The event does not make the topic answer its own peer. -/
def Elsewhere (me : PeerId) (l : NeighborLog) (event : TopicInEvent × ℕ) : Prop := ¬l.state.Answers event.1 me

theorem never_writes_to_itself (blake3 : Bytes → MessageId) (me : PeerId) (active maxMessageSize passive : ℕ)
    (random : Stream' ℕ) (peerData : Option Bytes) {events : List (TopicInEvent × ℕ)} {l : NeighborLog}
    (hruns : GuardedRuns (step blake3) (Elsewhere me) ⟨create me active maxMessageSize passive random peerData, []⟩
      events l) :
    Silent me l.out ∧ me ∉ l.state.pendingNeighborRequests := by
 have hst : (create me active maxMessageSize passive random peerData).Foreign me :=
  ⟨rfl,not_mem_nil,nofun⟩
 obtain ⟨hf,hsilent⟩:=hruns.invariant (fun l=>l.state.Foreign me ∧ Silent me l.out) ⟨hst,fun _=>not_mem_nil⟩
  fun l event next hl hevent hn=>by
   cases hn
   obtain ⟨rest,hrest,ho,scheduled,hse⟩:=handle_cases blake3 event.1 event.2 l.state
   have he : (l.state.expireCaches event.2).Foreign me := hl.1
   obtain ⟨hf,hq⟩:=handleEvent_foreign blake3 he event.2 hevent
   rw [hse,ho]
   refine ⟨hf,hl.2.append (Silent.append (fun message hm=>?_) (silent_of_shuffle hrest me))⟩
   exact hq _ hm message rfl
 exact ⟨hsilent,fun hm=>hf.2.1 (by simp [known,hm])⟩

instance decidableElsewhere (me : PeerId) (l : NeighborLog) : DecidablePred (Elsewhere me l) := fun event => by
  have mem (peer : PeerId) (peers : List PeerId) : Decidable (peer ∈ peers) := decidable_of_iff _ has_eq_true
  unfold Elsewhere Answers
  split <;> infer_instance

/-- Two neighbors tell the topic about its own peer. -/
def toldOfItself : List (TopicInEvent × ℕ) :=
  [(.recvMessage (idOf 2) (.join none), 0), (.recvMessage (idOf 3) (.join none), 1),
    (.recvMessage (idOf 2) (.forwardJoin ⟨idOf 1, none⟩ 6), 2),
    (.recvMessage (idOf 3) (.shuffleReply [⟨idOf 1, none⟩, ⟨idOf 4, none⟩]), 3)]

theorem writes_elsewhere_when_told_of_itself : ∃ l, GuardedRuns (step fun _ => idOf 0) (Elsewhere (idOf 1))
        ⟨create (idOf 1) 5 4096 5 (fun _ => 0) none, []⟩ toldOfItself l ∧
      .sendMessage (idOf 3) (.forwardJoin ⟨idOf 1, none⟩ 5) ∈ l.out ∧
      Silent (idOf 1) l.out ∧ idOf 1 ∉ l.state.pendingNeighborRequests := by
 refine exists_and₂ (by decide +kernel) fun l hr _=>?_
 exact never_writes_to_itself _ _ _ _ _ _ _ hr

/-- A peer that forwards the join of the topic's own peer is believed. -/
theorem asks_itself_to_join : .sendMessage (idOf 1) (.neighbor .high none) ∈ (handle (fun _ => idOf 0)
        (.recvMessage (idOf 2) (.forwardJoin ⟨idOf 1, none⟩ 6)) 0
        (create (idOf 1) 5 4096 5 (fun _ => 0) none)).1 ∧
      idOf 1 ∈ (handle (fun _ => idOf 0)
        (.recvMessage (idOf 2) (.forwardJoin ⟨idOf 1, none⟩ 6)) 0
        (create (idOf 1) 5 4096 5 (fun _ => 0) none)).2.pendingNeighborRequests := by
 decide +kernel

end NeighborLog

end Enlace.Gossip
