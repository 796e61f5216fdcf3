import Enlace.State.File

set_option autoImplicit false

/-! What a call whose flush fails leaves to be read. The memory is changed before the file, and
nothing takes the change back. -/
namespace Enlace.State
open ByteString Fallible WireFormat Crypto Peer Table List Mutation Keyed

variable {P : Primitives}

namespace InMemoryInner

/-- The read calls return the same, and so does the next put of a slot; the two lists come in the order of a hash map.
-/
structure SameReads (s u : InMemoryInner P) : Prop where
  nextLocalSlotVersion : ∀ slot, (s.nextLocalSlotVersion slot).2 = (u.nextLocalSlotVersion slot).2
  lastSeenSlotVersion : ∀ slot, s.lastSeenSlotVersion slot = u.lastSeenSlotVersion slot
  irohKeypair : s.irohKeypair = u.irohKeypair
  peerIdentity : s.peerIdentity = u.peerIdentity
  trustedPeer : ∀ id, s.trustedPeer id = u.trustedPeer id
  trustedPeers : ∀ peer, peer ∈ s.listTrustedPeers ↔ peer ∈ u.listTrustedPeers
  groupKeys : ∀ group key, key ∈ s.groupKeysOf group ↔ key ∈ u.groupKeysOf group

variable {s : InMemoryInner P}

lemma mem_groupKeysOf {group : GroupId} {key : GroupKey} :
    key ∈ s.groupKeysOf group ↔ s.groupKeys.get (group, key.id) = some key := by
 rw [get_eq_some,groupKeysOf,mem_map]
 constructor
 · rintro ⟨⟨⟨group',keyId⟩,key'⟩,he,rfl⟩
   obtain ⟨hm,hg⟩:=mem_filter.mp he
   obtain rfl : group' = group:=beq_iff_eq.mp hg
   obtain rfl : key'.id = keyId:=ok_of_mem hm
   exact hm
 · intro he
   exact ⟨_,mem_filter.mpr ⟨he,beq_self_eq_true _⟩,rfl⟩

lemma mem_listTrustedPeers {peer : TrustedPeer P} :
    peer ∈ s.listTrustedPeers ↔ s.trustedPeers.get peer.peerId = some peer := by
 rw [get_eq_some,listTrustedPeers,mem_map]
 constructor
 · rintro ⟨⟨id,peer'⟩,he,rfl⟩
   obtain rfl : peer'.peerId = id:=ok_of_mem he
   exact he
 · exact fun he=>⟨_,he,rfl⟩

lemma Same.sameReads {s u : InMemoryInner P} (h : Same s u) : SameReads s u where
 nextLocalSlotVersion slot := by
  have hf : s.floor slot = u.floor slot := by
   rw [floor,floor,h.localSlotVersions,h.lastSeenSlotVersions]
  rw [nextLocalSlotVersion_snd,nextLocalSlotVersion_snd,hf]
 lastSeenSlotVersion := h.lastSeenSlotVersions
 irohKeypair := h.irohKeypair
 peerIdentity := h.peerIdentity
 trustedPeer := h.trustedPeers
 trustedPeers peer := by rw [mem_listTrustedPeers,mem_listTrustedPeers,h.trustedPeers]
 groupKeys group key := by rw [mem_groupKeysOf,mem_groupKeysOf,h.groupKeys]

lemma next_ne_of_next {slot : Bytes} (h : (s.nextLocalSlotVersion slot).2 ≠ none) :
    ((s.nextLocalSlotVersion slot).1.nextLocalSlotVersion slot).2 ≠ (s.nextLocalSlotVersion slot).2 := by
 obtain ⟨v,hv⟩:=Option.ne_none_iff_exists'.mp h
 intro heq
 have hf : (s.nextLocalSlotVersion slot).1.floor slot = v := by
  rw [floor_nextLocalSlotVersion,if_pos rfl,hv]
  rfl
 have hlt:=floor_lt_next _ (heq.trans hv)
 rw [hf] at hlt
 exact lt_irrefl v hlt

lemma lastSeen_of_record {slot : Bytes} {version : UInt64} (h : (s.recordSeenSlotVersion slot version).2 = true) :
    (s.recordSeenSlotVersion slot version).1.lastSeenSlotVersion slot ≠ s.lastSeenSlotVersion slot := by
 unfold recordSeenSlotVersion at h ⊢
 split at h
 · rename_i ha
   rw [if_pos ha]
   intro heq
   have hold : s.lastSeenSlotVersions.get slot = some version := by
    rw [← lastSeenSlotVersion,← heq]
    exact (get_insert _ _ _ _ trivial).trans (if_pos rfl)
   rw [advances,hold] at ha
   simp at ha
 · cases h

end InMemoryInner

open InMemoryInner

def Mutation.Repeats (s : InMemoryInner P) : Mutation P → Prop
  | .storeIrohKeypair secret => s.irohKeypair = some secret
  | .storePeerIdentity identity => s.peerIdentity = some identity
  | .storeTrustedPeer peer => s.trustedPeer peer.peerId = some peer
  | .trustPeer card => s.trustedPeer card.peerId = some ⟨card⟩
  | .storeGroupKey group key => key ∈ s.groupKeysOf group
  | _ => False

def Mutation.reachesFlush (s : InMemoryInner P) : Mutation P → Bool
  | .nextLocalSlotVersion slot => (s.nextLocalSlotVersion slot).2.isSome
  | m => m.flushes s

open Same

lemma Mutation.sameReads_apply_iff {s : InMemoryInner P} {m : Mutation P}
    (h : m.reachesFlush s = true) : SameReads (m.apply s) s ↔ m.Repeats s := by
 cases m with
 | nextLocalSlotVersion slot =>
  refine iff_of_false (fun hs=>?_) id
  exact next_ne_of_next (Option.isSome_iff_ne_none.mp h) (hs.nextLocalSlotVersion slot)
 | recordSeenSlotVersion slot version =>
  exact iff_of_false (fun hs=>lastSeen_of_record h (hs.lastSeenSlotVersion slot)) id
 | storeIrohKeypair secret =>
  refine ⟨fun hs=>hs.irohKeypair.symm,fun hs=>sameReads ?_⟩
  exact { refl s with irohKeypair := Eq.symm hs }
 | storePeerIdentity idn =>
  refine ⟨fun hs=>hs.peerIdentity.symm,fun hs=>sameReads ?_⟩
  exact { refl s with peerIdentity := Eq.symm hs }
 | storeTrustedPeer peer =>
  refine ⟨fun hs=>?_,fun hs=>sameReads ?_⟩
  · exact (hs.trustedPeer peer.peerId).symm.trans
     ((get_apply s _ _).trans (if_pos (decide_eq_true rfl)))
  · exact s.storeTrustedPeer_same hs
 | trustPeer card =>
  refine ⟨fun hs=>?_,fun hs=>sameReads ?_⟩
  · exact (hs.trustedPeer card.peerId).symm.trans
     ((get_apply s _ _).trans (if_pos (decide_eq_true rfl)))
  · exact s.storeTrustedPeer_same hs
 | removeTrustedPeer id =>
  refine iff_of_false (fun hs=>?_) (fun hs=>hs)
  have hg : s.trustedPeers.get id = none := (hs.trustedPeer id).symm.trans ((get_erase _ _ _).trans (if_pos rfl))
  exact absurd h (by simp [reachesFlush,flushes,InMemoryInner.removeTrustedPeer,hg])
 | storeGroupKey group key =>
  refine ⟨fun hs=>(hs.groupKeys group key).mp ?_,fun hs=>sameReads ?_⟩
  · have hst:=s.groupKeys.get_insert (group,key.id) (group,key.id) key rfl
    exact mem_groupKeysOf.mpr (hst.trans (if_pos rfl))
  · exact s.storeGroupKey_same (mem_groupKeysOf.mp hs)
 | removeGroupKey group keyId =>
  refine iff_of_false (fun hs=>?_) id
  obtain ⟨key,hke⟩:=Option.isSome_iff_exists.mp h
  obtain rfl : key.id = keyId:=ok_of_get (m := s.groupKeys) hke
  have hk:=mem_groupKeysOf.mp ((hs.groupKeys group key).mpr (mem_groupKeysOf.mpr hke))
  rw [apply,InMemoryInner.removeGroupKey,get_erase,if_pos rfl] at hk
  cases hk

namespace FileStateStore

variable {rmp : Codec Snapshot} {st : FileStateStore P} {io : Io}

lemma commitIf_fail {change : InMemoryInner P × Bool} {e : StateError} (h : (st.commitIf rmp io change).2 = fail e) :
    (st.commitIf rmp io change).1.inner = change.1 ∧ change.2 = true := by
 unfold commitIf at h ⊢
 split at h
 · rename_i hc
   rw [if_pos hc]
   exact ⟨rfl,hc⟩
 · cases h

lemma exec_fail {m : Mutation P} {e : StateError} (h : (st.exec rmp io m).2 = fail (.state e)) :
    (st.exec rmp io m).1.inner = m.apply st.inner ∧ m.reachesFlush st.inner = true := by
 cases m with
 | nextLocalSlotVersion slot =>
  simp only [exec,nextLocalSlotVersion,apply,reachesFlush] at h ⊢
  generalize st.inner.nextLocalSlotVersion slot = r at h ⊢
  obtain ⟨inner,_|next⟩:=r
  · cases h
  · exact ⟨rfl,rfl⟩
 | trustPeer card =>
  simp only [exec,trustPeer,TrustedPeer.tryFromCard,apply] at h ⊢
  rcases card.validate_cases with hv|⟨e',hv⟩
  · rw [hv]
    exact ⟨rfl,rfl⟩
  · rw [hv] at h
    cases h
 | recordSeenSlotVersion slot version | removeTrustedPeer id | removeGroupKey group keyId =>
  obtain ⟨_,hf,_⟩:=mapErr_eq_fail h
  exact commitIf_fail hf
 | _ => exact ⟨rfl,rfl⟩

/-- Of a call whose flush fails, the store reads as before exactly when the call stored what was
stored already. -/
theorem failed_flush_reads_iff (rmp : Codec Snapshot) (st : FileStateStore P) (m : Mutation P) (io : Io)
    (e : StateError) (h : (st.exec rmp io m).2 = fail (.state e)) :
    SameReads (st.exec rmp io m).1.inner st.inner ↔ m.Repeats st.inner := by
 obtain ⟨hi,hf⟩:=exec_fail h
 rw [hi]
 exact sameReads_apply_iff hf

theorem failed_flush_reads_repeat :
    let st := ((blank : FileStateStore plainPrimitives).exec plainCodec .done (.storeGroupKey zero32 plainKey)).1
    let m := Mutation.storeGroupKey zero32 plainKey
    (st.exec plainCodec .renameFails m).2 = fail (.state .backend) ∧ m.Repeats st.inner ∧
    (SameReads (st.exec plainCodec .renameFails m).1.inner st.inner ↔ m.Repeats st.inner) :=
 ⟨rfl,mem_singleton.mpr rfl,failed_flush_reads_iff plainCodec _ _ .renameFails .backend rfl⟩

/-- A group key whose store fails at the rename is there for every later read. -/
theorem failed_store_is_read :
    let r := (blank : FileStateStore plainPrimitives).exec plainCodec .renameFails
      (.storeGroupKey zero32 plainKey)
    r.2 = fail (.state .backend) ∧
    (blank : FileStateStore plainPrimitives).inner.groupKeysOf zero32 = [] ∧
    r.1.inner.groupKeysOf zero32 = [plainKey] :=
 ⟨rfl,rfl,rfl⟩

end FileStateStore
end Enlace.State
