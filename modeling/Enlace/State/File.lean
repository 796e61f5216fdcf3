import Enlace.State.Memory
import Enlace.Lib.Transition

set_option autoImplicit false

/-! `FileStateStore`: every mutation changes the memory first and the file second, and each write
or rename of the file may fail. -/
namespace Enlace.State
open ByteString Fallible WireFormat Crypto Peer Table Transition List Option

inductive TrustError where
  | card (e : PeerCardError)
  | state (e : StateError)
  deriving DecidableEq

structure Disk where
  file : Option Bytes
  tmp : Option Bytes
  deriving DecidableEq

/-- What the file system makes of one flush. A failed write leaves the temporary file with any
content. -/
inductive Io where
  | done
  | writeFails (left : Option Bytes)
  | renameFails

structure FileStateStore (P : Primitives) where
  inner : InMemoryInner P
  disk : Disk

variable {P : Primitives} (rmp : Codec Snapshot)

namespace FileStateStore

def openStore (disk : Disk) : Res StateError (FileStateStore P) :=
  match disk.file with
  | none => .ok ⟨.empty, disk⟩
  | some bytes => do
    let snapshot ← okOr (.corrupted "snapshot decode failed") (rmp.decode bytes)
    let inner ← snapshot.intoInner
    return ⟨inner, disk⟩

def flushLocked (inner : InMemoryInner P) (disk : Disk) (io : Io) : Disk × Res StateError Unit :=
  match rmp.encode (Snapshot.fromInner inner), io with
  | none, _ => (disk, fail .backend)
  | some _, .writeFails left => ({ disk with tmp := left }, fail .backend)
  | some bytes, .renameFails => ({ disk with tmp := some bytes }, fail .backend)
  | some bytes, .done => (⟨some bytes, none⟩, .ok ())

variable (st : FileStateStore P) (io : Io)

def commit (inner : InMemoryInner P) : FileStateStore P × Res StateError Unit :=
  (⟨inner, (flushLocked rmp inner st.disk io).1⟩, (flushLocked rmp inner st.disk io).2)

def commitIf (change : InMemoryInner P × Bool) : FileStateStore P × Res StateError Unit :=
  if change.2 then st.commit rmp io change.1 else (⟨change.1, st.disk⟩, .ok ())

def nextLocalSlotVersion (slot : Bytes) : FileStateStore P × Res StateError UInt64 :=
  match st.inner.nextLocalSlotVersion slot with
  | (inner, none) => (⟨inner, st.disk⟩, .error .abort)
  | (inner, some next) => ((st.commit rmp io inner).1, do (st.commit rmp io inner).2; return next)

def recordSeenSlotVersion (slot : Bytes) (version : UInt64) :=
  st.commitIf rmp io (st.inner.recordSeenSlotVersion slot version)

def storeIrohKeypair (secret : Bytes32) := st.commit rmp io (st.inner.storeIrohKeypair secret)

def storePeerIdentity (identity : PeerIdentity) :=
  st.commit rmp io (st.inner.storePeerIdentity identity)

def storeTrustedPeer (peer : TrustedPeer P) := st.commit rmp io (st.inner.storeTrustedPeer peer)

def removeTrustedPeer (id : PeerId) := st.commitIf rmp io (st.inner.removeTrustedPeer id)

def storeGroupKey (group : GroupId) (key : GroupKey) :=
  st.commit rmp io (st.inner.storeGroupKey group key)

def removeGroupKey (group : GroupId) (keyId : GroupKeyId) :=
  st.commitIf rmp io (st.inner.removeGroupKey group keyId)

def trustPeer (card : PeerCard P) : FileStateStore P × Res TrustError (TrustedPeer P) :=
  match TrustedPeer.tryFromCard card with
  | .error e => (st, mapErr .card (.error e))
  | .ok peer => ((st.storeTrustedPeer rmp io peer).1,
      do mapErr .state (st.storeTrustedPeer rmp io peer).2; return peer)

end FileStateStore

/-- The calls that change the state: those of `StateStore`, and `State::trust_peer`. -/
inductive Mutation (P : Primitives) where
  | nextLocalSlotVersion (slot : Bytes)
  | recordSeenSlotVersion (slot : Bytes) (version : UInt64)
  | storeIrohKeypair (secret : Bytes32)
  | storePeerIdentity (identity : PeerIdentity)
  | storeTrustedPeer (peer : TrustedPeer P)
  | trustPeer (card : PeerCard P)
  | removeTrustedPeer (id : PeerId)
  | storeGroupKey (group : GroupId) (key : GroupKey)
  | removeGroupKey (group : GroupId) (keyId : GroupKeyId)

def FileStateStore.exec (st : FileStateStore P) (io : Io) : Mutation P → FileStateStore P × Res TrustError Unit
  | .nextLocalSlotVersion slot =>
    let r := st.nextLocalSlotVersion rmp io slot
    (r.1, do let _ ← mapErr .state r.2; return ())
  | .recordSeenSlotVersion slot version =>
    let r := st.recordSeenSlotVersion rmp io slot version
    (r.1, mapErr .state r.2)
  | .storeIrohKeypair secret =>
    let r := st.storeIrohKeypair rmp io secret
    (r.1, mapErr .state r.2)
  | .storePeerIdentity identity =>
    let r := st.storePeerIdentity rmp io identity
    (r.1, mapErr .state r.2)
  | .storeTrustedPeer peer =>
    let r := st.storeTrustedPeer rmp io peer
    (r.1, mapErr .state r.2)
  | .trustPeer card =>
    let r := st.trustPeer rmp io card
    (r.1, do let _ ← r.2; return ())
  | .removeTrustedPeer id =>
    let r := st.removeTrustedPeer rmp io id
    (r.1, mapErr .state r.2)
  | .storeGroupKey group key =>
    let r := st.storeGroupKey rmp io group key
    (r.1, mapErr .state r.2)
  | .removeGroupKey group keyId =>
    let r := st.removeGroupKey rmp io group keyId
    (r.1, mapErr .state r.2)

def Mutation.apply (s : InMemoryInner P) : Mutation P → InMemoryInner P
  | .nextLocalSlotVersion slot => (s.nextLocalSlotVersion slot).1
  | .recordSeenSlotVersion slot version => (s.recordSeenSlotVersion slot version).1
  | .storeIrohKeypair secret => s.storeIrohKeypair secret
  | .storePeerIdentity identity => s.storePeerIdentity identity
  | .storeTrustedPeer peer => s.storeTrustedPeer peer
  | .trustPeer card => s.storeTrustedPeer ⟨card⟩
  | .removeTrustedPeer id => (s.removeTrustedPeer id).1
  | .storeGroupKey group key => s.storeGroupKey group key
  | .removeGroupKey group keyId => (s.removeGroupKey group keyId).1

def Mutation.flushes (s : InMemoryInner P) : Mutation P → Bool
  | .recordSeenSlotVersion slot version => (s.recordSeenSlotVersion slot version).2
  | .removeTrustedPeer id => (s.removeTrustedPeer id).2
  | .removeGroupKey group keyId => (s.removeGroupKey group keyId).2
  | _ => true

variable {m : Mutation P} {s : InMemoryInner P}

lemma Mutation.apply_same (h : m.flushes s = false) : (m.apply s).Same s := by
 cases m with
 | recordSeenSlotVersion slot version => exact s.recordSeenSlotVersion_same h
 | removeTrustedPeer id => exact s.removeTrustedPeer_same h
 | removeGroupKey group keyId => exact s.removeGroupKey_same h
 | _ => cases h

def Mutation.stores : Mutation P → Option (TrustedPeer P)
  | .storeTrustedPeer peer => some peer
  | .trustPeer card => some ⟨card⟩
  | _ => none

def Mutation.touches (id : PeerId) : Mutation P → Bool
  | .storeTrustedPeer peer => id = peer.peerId
  | .trustPeer card => id = card.peerId
  | .removeTrustedPeer id' => id = id'
  | _ => false

lemma Mutation.get_apply (s : InMemoryInner P) (m : Mutation P) (id : PeerId) :
    (m.apply s).trustedPeers.get id = if m.touches id then m.stores else s.trustedPeers.get id := by
 cases m with
 | storeTrustedPeer peer =>
  simp only [apply,InMemoryInner.storeTrustedPeer,Keyed.get_insert,touches,stores,decide_eq_true_eq]
 | trustPeer card =>
  simp only [apply,InMemoryInner.storeTrustedPeer,Keyed.get_insert,touches,stores,decide_eq_true_eq]
  rfl
 | removeTrustedPeer id' =>
  simp only [apply,InMemoryInner.removeTrustedPeer,Keyed.get_erase,touches,stores,decide_eq_true_eq]
 | nextLocalSlotVersion slot =>
  simp only [apply,InMemoryInner.nextLocalSlotVersion,touches,Bool.false_eq_true,if_false]
  split
  · rfl
  · rfl
 | recordSeenSlotVersion slot version =>
  simp only [apply,InMemoryInner.recordSeenSlotVersion,touches,Bool.false_eq_true,if_false]
  split
  · rfl
  · rfl
 | _ => rfl

lemma Mutation.touches_of_stores {peer : TrustedPeer P}
    (h : m.stores = some peer) : m.touches peer.peerId = true := by
 cases m with
 | storeTrustedPeer p | trustPeer card =>
  cases h
  exact decide_eq_true rfl
 | _ => cases h

variable {b : Bytes} {card : PeerCard P} {saved : InMemoryInner P} {u : Unit}

open Mutation

namespace FileStateStore

variable {rmp} {st : FileStateStore P} {io : Io}

lemma commit_ok {inner : InMemoryInner P} (h : (st.commit rmp io inner).2 = .ok u) :
    ∃ b, rmp.encode (Snapshot.fromInner inner) = some b ∧ (st.commit rmp io inner).1 = ⟨inner, some b, none⟩ := by
 unfold commit flushLocked at h ⊢
 cases he : rmp.encode (Snapshot.fromInner inner) with
 | none =>
  rw [he] at h
  cases h
 | some b =>
  rw [he] at h
  cases io with
  | done => exact ⟨b,rfl,rfl⟩
  | writeFails left | renameFails => cases h

/-- What a call that returned Ok has done: written the new state, or found nothing to change. -/
def Effect (rmp : Codec Snapshot) (st st' : FileStateStore P) (m : Mutation P) : Prop :=
  (m.flushes st.inner = true ∧ ∃ b, rmp.encode (Snapshot.fromInner (m.apply st.inner)) = some b ∧
    st' = ⟨m.apply st.inner, some b, none⟩) ∨
  (m.flushes st.inner = false ∧ st' = ⟨m.apply st.inner, st.disk⟩)

lemma commitIf_ok {change : InMemoryInner P × Bool} (h : (st.commitIf rmp io change).2 = .ok u) :
    (change.2 = true ∧ ∃ b, rmp.encode (Snapshot.fromInner change.1) = some b ∧
      (st.commitIf rmp io change).1 = ⟨change.1, some b, none⟩) ∨
    (change.2 = false ∧ (st.commitIf rmp io change).1 = ⟨change.1, st.disk⟩) := by
 unfold commitIf at h ⊢
 cases hc : change.2 with
 | true =>
  rw [hc] at h
  exact .inl ⟨rfl,commit_ok h⟩
 | false => exact .inr ⟨rfl,rfl⟩

lemma exec_ok (h : (st.exec rmp io m).2 = .ok ()) : Effect rmp st (st.exec rmp io m).1 m := by
 cases m with
 | nextLocalSlotVersion slot =>
  refine .inl ⟨rfl,?_⟩
  simp only [exec,nextLocalSlotVersion,apply] at h ⊢
  generalize st.inner.nextLocalSlotVersion slot = r at h ⊢
  obtain ⟨inner,_|next⟩:=r
  · cases h
  · simp only [bind_eq_ok,mapErr_eq_ok] at h
    obtain ⟨_,⟨_,hc,_⟩,_⟩:=h
    exact commit_ok hc
 | recordSeenSlotVersion slot version | removeTrustedPeer id | removeGroupKey group keyId =>
  exact commitIf_ok (mapErr_eq_ok.mp h)
 | storeIrohKeypair secret | storePeerIdentity idn | storeTrustedPeer peer =>
  exact .inl ⟨rfl,commit_ok (mapErr_eq_ok.mp h)⟩
 | trustPeer card =>
  refine .inl ⟨rfl,?_⟩
  simp only [exec,trustPeer,TrustedPeer.tryFromCard,apply] at h ⊢
  rcases card.validate_cases with hv|⟨e,hv⟩
  · rw [hv] at h ⊢
    simp only [ok_bind,pure,Except.pure,bind_eq_ok,mapErr_eq_ok] at h ⊢
    obtain ⟨_,⟨_,hc,_⟩,_⟩:=h
    exact commit_ok hc
  · rw [hv] at h
    cases h
 | storeGroupKey group key => exact .inl ⟨rfl,commit_ok (mapErr_eq_ok.mp h)⟩

def Synced (rmp : Codec Snapshot) (st : FileStateStore P) : Prop :=
  ∃ u, openStore rmp st.disk = .ok u ∧ u.inner.Same st.inner

variable {disk : Disk}

lemma Synced.congr {u : InMemoryInner P} (h : s.Same u) : Synced rmp ⟨s, disk⟩ ↔ Synced rmp ⟨u, disk⟩ :=
 ⟨fun ⟨v,hv,hs⟩=>⟨v,hv,hs.trans h⟩,fun ⟨v,hv,hs⟩=>⟨v,hv,hs.trans h.symm⟩⟩

lemma synced_of_encode {tmp : Option Bytes} (h : rmp.encode (Snapshot.fromInner s) = some b) :
    Synced rmp ⟨s, some b, tmp⟩ ↔ s.CardsValid := by
 rw [← intoInner_fromInner_iff]
 have hopen : openStore rmp ⟨some b,tmp⟩ = (do
   let inner ← (Snapshot.fromInner s).intoInner
   return (⟨inner,some b,tmp⟩ : FileStateStore P)) := by
  simp only [openStore,rmp.decode_encode h,okOr_some,ok_bind]
 simp only [Synced,hopen,bind_eq_ok,pure_eq_ok]
 constructor
 · rintro ⟨_,⟨inner,hi,rfl⟩,hs⟩
   exact ⟨inner,hi,hs⟩
 · rintro ⟨inner,hi,hs⟩
   exact ⟨_,⟨inner,hi,rfl⟩,hs⟩

def InForce (s : InMemoryInner P) : Mutation P → Prop
  | .removeTrustedPeer id => s.trustedPeers.get id = none
  | .removeGroupKey group keyId => s.groupKeys.get (group, keyId) = none
  | _ => True

lemma inForce_apply (s : InMemoryInner P) (m : Mutation P) : InForce (m.apply s) m := by
 cases m with
 | removeTrustedPeer id => exact (s.trustedPeers.get_erase id id).trans (if_pos rfl)
 | removeGroupKey group keyId => exact (s.groupKeys.get_erase _ _).trans (if_pos rfl)
 | _ => trivial

lemma InForce.of_same {u : InMemoryInner P} (h : u.Same s) (hm : InForce s m) : InForce u m := by
 cases m with
 | removeTrustedPeer id => exact (h.trustedPeers id).trans hm
 | removeGroupKey group keyId => exact (h.groupKeys _).trans hm
 | _ => trivial

lemma commit_ok_or (inner : InMemoryInner P) : (st.commit rmp io inner).2 = .ok () ∨
    (st.commit rmp io inner).1.disk.file = st.disk.file := by
 unfold commit flushLocked
 cases rmp.encode (Snapshot.fromInner inner) with
 | none => exact .inr rfl
 | some b =>
  cases io with
  | done => exact .inl rfl
  | writeFails left | renameFails => exact .inr rfl

lemma commitIf_ok_or (change : InMemoryInner P × Bool) : (st.commitIf rmp io change).2 = .ok () ∨
    (st.commitIf rmp io change).1.disk.file = st.disk.file := by
 unfold commitIf
 split
 · exact commit_ok_or change.1
 · exact .inl rfl

lemma exec_ok_or (m : Mutation P) : (st.exec rmp io m).2 = .ok () ∨
    (st.exec rmp io m).1.disk.file = st.disk.file := by
 cases m with
 | nextLocalSlotVersion slot =>
  simp only [exec,nextLocalSlotVersion]
  generalize st.inner.nextLocalSlotVersion slot = r
  obtain ⟨inner,_|next⟩:=r
  · exact .inr rfl
  · exact (commit_ok_or inner).imp_left fun h=>by simp only [h,ok_bind,mapErr_ok,pure,Except.pure]
 | trustPeer card =>
  simp only [exec,trustPeer,TrustedPeer.tryFromCard]
  rcases card.validate_cases with hv|⟨e,hv⟩
  · rw [hv]
    exact (commit_ok_or _).imp_left fun h=>by
     simp only [storeTrustedPeer,ok_bind,pure,Except.pure,h,mapErr_ok]
  · rw [hv]
    exact .inr rfl
 | recordSeenSlotVersion slot version | removeTrustedPeer id | removeGroupKey group keyId =>
  exact (commitIf_ok_or _).imp_left mapErr_eq_ok.mpr
 | storeIrohKeypair secret | storePeerIdentity idn | storeTrustedPeer peer =>
  exact (commit_ok_or _).imp_left mapErr_eq_ok.mpr
 | storeGroupKey group key => exact (commit_ok_or _).imp_left mapErr_eq_ok.mpr

lemma Synced.of_file {x : InMemoryInner P} {d d' : Disk} (hfi : d.file = d'.file)
    (h : Synced rmp ⟨x, d⟩) : Synced rmp ⟨x, d'⟩ := by
 obtain ⟨u,hu,hsa⟩:=h
 refine ⟨⟨u.inner,d'⟩,?_,hsa⟩
 simp only [openStore,← hfi] at hu ⊢
 cases hf : d.file with
 | none =>
  rw [hf] at hu
  rw [← Except.ok.inj hu]
 | some b =>
  simp only [hf,bind_eq_ok,pure_eq_ok] at hu ⊢
  obtain ⟨snapshot,hs,inner,hi,rfl⟩:=hu
  exact ⟨snapshot,hs,inner,hi,rfl⟩

lemma openStore_ok (h : openStore rmp disk = .ok st) : st.disk = disk ∧ st.inner.CardsValid := by
 unfold openStore at h
 split at h
 · rw [← Except.ok.inj h]
   exact ⟨rfl,nofun⟩
 · simp only [bind_eq_ok,pure_eq_ok] at h
   obtain ⟨snapshot,_,inner,hi,rfl⟩:=h
   exact ⟨rfl,cardsValid_of_intoInner hi⟩

structure Session (P : Primitives) where
  store : FileStateStore P
  saved : InMemoryInner P

namespace Session

def call (rmp : Codec Snapshot) (s : Session P) (c : Mutation P × Io) : Session P :=
  let r := s.store.exec rmp c.2 c.1
  match r.2 with
  | .ok _ => ⟨r.1, if c.1.flushes s.store.inner then r.1.inner else s.saved⟩
  | .error _ => ⟨r.1, s.saved⟩

def run (rmp : Codec Snapshot) (st : FileStateStore P) (calls : List (Mutation P × Io)) : Session P :=
  calls.foldl (call rmp) ⟨st, st.inner⟩

/-- The file gives back what was saved, if its cards are valid, and nothing else. -/
def Tracks (rmp : Codec Snapshot) (s : Session P) : Prop :=
  ∀ x, Synced rmp ⟨x, s.store.disk⟩ ↔ s.saved.CardsValid ∧ s.saved.Same x

lemma tracks_start (h : openStore rmp disk = .ok st) : Tracks rmp ⟨st, st.inner⟩ := by
 obtain ⟨hd,hv⟩:=openStore_ok h
 intro x
 constructor
 · rintro ⟨u,hu,hs⟩
   simp only [hd,h] at hu
   rw [← Except.ok.inj hu] at hs
   exact ⟨hv,hs⟩
 · rintro ⟨_,hs⟩
   exact ⟨st,by simp only [hd,h],hs⟩

lemma tracks_written (h : rmp.encode (Snapshot.fromInner s) = some b) : Tracks rmp ⟨⟨s, some b, none⟩, s⟩ := by
 intro x
 constructor
 · rintro ⟨u,hu,hsa⟩
   simp only [openStore,rmp.decode_encode h,okOr_some,ok_bind,bind_eq_ok,pure_eq_ok] at hu
   obtain ⟨inner,hi,rfl⟩:=hu
   obtain ⟨hv,hs⟩:=same_of_intoInner hi
   exact ⟨hv,hs.symm.trans hsa⟩
 · rintro ⟨hv,hsa⟩
   exact (Synced.congr hsa).mp ((synced_of_encode h).mpr hv)

lemma tracks_call {s : Session P} (hs : Tracks rmp s) (c : Mutation P × Io) : Tracks rmp (s.call rmp c) := by
 unfold call
 cases hr : (s.store.exec rmp c.2 c.1).2 with
 | ok u =>
  simp only [hr]
  rcases exec_ok hr with ⟨hf,b,hb,he⟩|⟨hf,he⟩
  · rw [he,if_pos hf]
    exact tracks_written hb
  · rw [he,if_neg (by rw [hf]; decide)]
    exact hs
 | error e =>
  simp only [hr]
  have hfi:=(exec_ok_or c.1).resolve_left fun h=>nomatch hr.symm.trans h
  intro x
  rw [← hs x]
  exact ⟨Synced.of_file hfi,Synced.of_file hfi.symm⟩

lemma tracks_run (h : openStore rmp disk = .ok st) (calls : List (Mutation P × Io)) : Tracks rmp (run rmp st calls) :=
 foldlRecOn calls (call rmp) (tracks_start h) fun _ hs c _=>tracks_call hs c

end Session

/-- A call that returns Ok leaves the file in step with the memory exactly when it wrote the file and every card in it
is valid, or had nothing to change and the memory is what was last saved; and then a removal survives a restart. -/
theorem ok_synced_iff (rmp : Codec Snapshot) (disk : Disk) (st₀ : FileStateStore P)
    (hopen : openStore rmp disk = .ok st₀) (calls : List (Mutation P × Io)) (m : Mutation P) (io : Io)
    (hok : ((Session.run rmp st₀ calls).store.exec rmp io m).2 = .ok ()) :
    let s := Session.run rmp st₀ calls
    (Synced rmp (s.store.exec rmp io m).1 ↔ if m.flushes s.store.inner then (m.apply s.store.inner).CardsValid
      else s.saved.CardsValid ∧ s.saved.Same s.store.inner) ∧
    (Synced rmp (s.store.exec rmp io m).1 →
      ∃ u, openStore rmp (s.store.exec rmp io m).1.disk = .ok u ∧ InForce u.inner m) := by
 intro s
 have ht : s.Tracks rmp := Session.tracks_run hopen calls
 have hi : (s.store.exec rmp io m).1.inner = m.apply s.store.inner := by
  rcases exec_ok hok with ⟨_,_,_,he⟩|⟨_,he⟩
  · rw [he]
  · rw [he]
 constructor
 · rcases exec_ok hok with ⟨hf,b,hb,he⟩|⟨hf,he⟩
   · rw [he,hf]
     exact synced_of_encode hb
   · rw [he,hf]
     exact (Synced.congr (apply_same hf)).trans (ht s.store.inner)
 · rintro ⟨u,hu,hs⟩
   rw [hi] at hs
   exact ⟨u,hu,(inForce_apply s.store.inner m).of_same hs⟩

def blank : FileStateStore P := ⟨.empty, none, none⟩

def plainCodec : Codec Snapshot := snapshotFormat.codec

def plainKey : GroupKey := ⟨zero32, zero32⟩

def plainRetry : List (Mutation plainPrimitives × Io) :=
  [(.storeGroupKey zero32 plainKey, .done), (.removeGroupKey zero32 plainKey.id, .renameFails),
    (.storeGroupKey zero32 plainKey, .done)]

theorem ok_synced_store :
    let s := Session.run plainCodec (blank : FileStateStore plainPrimitives) plainRetry
    let m := Mutation.removeGroupKey zero32 plainKey.id
    openStore plainCodec ⟨none,none⟩ = .ok (blank : FileStateStore plainPrimitives) ∧
    (s.store.exec plainCodec .done m).2 = .ok () ∧
    (Synced plainCodec (s.store.exec plainCodec .done m).1 ↔
      if m.flushes s.store.inner then (m.apply s.store.inner).CardsValid
      else s.saved.CardsValid ∧ s.saved.Same s.store.inner) ∧
    (Synced plainCodec (s.store.exec plainCodec .done m).1 →
      ∃ u, openStore plainCodec (s.store.exec plainCodec .done m).1.disk = .ok u ∧ InForce u.inner m) :=
 ⟨rfl,rfl,ok_synced_iff plainCodec ⟨none,none⟩ blank rfl plainRetry (.removeGroupKey zero32 plainKey.id) .done rfl⟩

set_option maxRecDepth 8000 in
theorem removed_key_returns :
    let stored := (blank : FileStateStore plainPrimitives).exec plainCodec .done
      (.storeGroupKey zero32 plainKey)
    let failed := stored.1.exec plainCodec .renameFails (.removeGroupKey zero32 plainKey.id)
    let retried := failed.1.exec plainCodec .done (.removeGroupKey zero32 plainKey.id)
    stored.2 = .ok () ∧ failed.2 = fail (.state .backend) ∧ retried.2 = .ok () ∧
    retried.1.inner.groupKeys.get (zero32,plainKey.id) = none ∧
    ∃ u : FileStateStore plainPrimitives, openStore plainCodec retried.1.disk = .ok u ∧
      u.inner.groupKeys.get (zero32,plainKey.id) = some plainKey :=
 ⟨rfl,rfl,rfl,rfl,_,rfl,rfl⟩

section Restart

def stepOk (rmp : Codec Snapshot) (st : FileStateStore P) (call : Mutation P × Io) : Option (FileStateStore P) :=
  match (st.exec rmp call.2 call.1).2 with
  | .ok _ => some (st.exec rmp call.2 call.1).1
  | .error _ => none

variable {st st' : FileStateStore P}

lemma stepOk_effect {call : Mutation P × Io} (h : stepOk rmp st call = some st') :
    (st.exec rmp call.2 call.1).2 = .ok () ∧ Effect rmp st st' call.1 := by
 unfold stepOk at h
 split at h
 · rename_i hok
   rw [← some.inj h]
   exact ⟨hok,exec_ok hok⟩
 · cases h

lemma call_of_stepOk {c : Mutation P × Io} (h : stepOk rmp st c = some st') (hs : saved.Same st.inner) :
    ∃ saved', Session.call rmp ⟨st, saved⟩ c = ⟨st', saved'⟩ ∧ saved'.Same st'.inner := by
 obtain ⟨hok,hef⟩:=stepOk_effect h
 simp only [stepOk,hok,some.injEq] at h
 simp only [Session.call,hok,h]
 refine ⟨_,rfl,?_⟩
 split
 · exact .refl _
 · rename_i hf
   rcases hef with ⟨hf',_⟩|⟨hf',he⟩
   · exact absurd hf' hf
   · rw [he]
     exact hs.trans (apply_same hf').symm

variable {calls : List (Mutation P × Io)}

/-- As long as every call succeeds, what is in memory is saved. -/
theorem run_of_stepOk (h : Runs (stepOk rmp) st calls st') (hs : saved.Same st.inner) :
    ∃ saved', calls.foldl (Session.call rmp) ⟨st, saved⟩ = ⟨st', saved'⟩ ∧ saved'.Same st'.inner := by
 induction h generalizing saved with
 | refl st => exact ⟨saved,rfl,hs⟩
 | next h _ ih =>
  obtain ⟨next,hc,hn⟩:=call_of_stepOk h hs
  rw [foldl_cons,hc]
  exact ih hn

lemma synced_of_stepOk (h : Runs (stepOk rmp) blank calls st) : Synced rmp st ↔ st.inner.CardsValid := by
 obtain ⟨saved,hr,hs⟩:=run_of_stepOk h (.refl _)
 have hopen : openStore rmp ⟨none,none⟩ = .ok (blank : FileStateStore P) := rfl
 have ht : Session.Tracks rmp ⟨st,saved⟩ := hr ▸ Session.tracks_run hopen calls
 refine (ht st.inner).trans ⟨fun hv=>hv.1.of_same hs,fun hv=>?_⟩
 exact ⟨hv.of_same hs.symm,hs⟩

lemma get_of_effect (h : Effect rmp st st' m) (id : PeerId) : st'.inner.trustedPeers.get id =
      if m.touches id then m.stores else st.inner.trustedPeers.get id := by
 rw [← get_apply]
 rcases h with ⟨_,_,_,rfl⟩|⟨_,rfl⟩
 · rfl
 · rfl

def LastStore (calls : List (Mutation P × Io)) (call : Mutation P × Io) (peer : TrustedPeer P) : Prop :=
  ∃ pre post, calls = pre ++ call :: post ∧ call.1.stores = some peer ∧ ∀ c ∈ post, c.1.touches peer.peerId = false

lemma held_iff (h : Runs (stepOk rmp) st calls st') (peer : TrustedPeer P) :
    st'.inner.trustedPeers.get peer.peerId = some peer ↔ (∃ call, LastStore calls call peer) ∨
      ((∀ c ∈ calls, c.1.touches peer.peerId = false) ∧ st.inner.trustedPeers.get peer.peerId = some peer) := by
 induction h with
 | refl st =>
  constructor
  · exact fun hp=>.inr ⟨nofun,hp⟩
  · rintro (⟨call,pre,post,hs,_⟩|⟨_,hp⟩)
    · exact absurd hs.symm (by simp)
    · exact hp
 | @next st u v call calls h _ ih =>
  rw [ih,get_of_effect (stepOk_effect h).2]
  constructor
  · rintro (⟨last,pre,post,rfl,hl⟩|⟨ha,hp⟩)
    · exact .inl ⟨last,call :: pre,post,rfl,hl⟩
    · split at hp
      · exact .inl ⟨call,[],calls,rfl,hp,ha⟩
      · rename_i ht
        refine .inr ⟨fun c hc=>?_,hp⟩
        rcases mem_cons.mp hc with rfl|hc
        · exact Bool.not_eq_true _ ▸ ht
        · exact ha c hc
  · rintro (⟨last,pre,post,hs,hst,hpo⟩|⟨ha,hp⟩)
    · cases pre with
      | nil =>
       obtain ⟨rfl,rfl⟩:=cons.inj hs
       refine .inr ⟨hpo,?_⟩
       rw [if_pos (touches_of_stores hst),hst]
      | cons c pre => exact .inl ⟨last,pre,post,(cons.inj hs).2,hst,hpo⟩
    · refine .inr ⟨fun c hc=>ha c (mem_cons_of_mem _ hc),?_⟩
      rw [if_neg (by rw [ha call mem_cons_self]; decide),hp]

lemma trustPeer_valid (h : (st.exec rmp io (.trustPeer card)).2 = .ok ()) : card.validate = .ok () := by
 simp only [exec,trustPeer,TrustedPeer.tryFromCard] at h
 rcases card.validate_cases with hv|⟨e,hv⟩
 · exact hv
 · rw [hv] at h
   cases h

lemma trusted_valid (h : Runs (stepOk rmp) st calls st')
    (hc : (.trustPeer card, io) ∈ calls) : card.validate = .ok () := by
 induction h with
 | refl st => cases hc
 | next h _ ih =>
  rcases mem_cons.mp hc with rfl|hc
  · exact trustPeer_valid (stepOk_effect h).1
  · exact ih hc

def Superseded (calls : List (Mutation P × Io)) : Prop :=
  ∀ pre peer io post, calls = pre ++ (.storeTrustedPeer peer, io) :: post →
    peer.card.validate ≠ .ok () → ∃ c ∈ post, c.1.touches peer.peerId = true

lemma cardsValid_iff (h : Runs (stepOk rmp) blank calls st) : st.inner.CardsValid ↔ Superseded calls := by
 constructor
 · intro hv pre peer io post hs hb
   by_contra hn
   have hpo : ∀ c ∈ post, c.1.touches peer.peerId = false := fun c hc=>
    Bool.not_eq_true _ ▸ fun ht=>hn ⟨c,hc,ht⟩
   exact hb (hv _ peer ((held_iff h peer).mpr (.inl ⟨_,pre,post,hs,rfl,hpo⟩)))
 · intro hsu id peer hp
   obtain rfl : peer.peerId = id:=Keyed.ok_of_get (m := st.inner.trustedPeers) hp
   rcases (held_iff h peer).mp hp with ⟨⟨m,io⟩,pre,post,hs,hst,hpo⟩|⟨_,he⟩
   · cases m with
     | storeTrustedPeer p =>
      obtain rfl:=some.inj hst
      by_contra hb
      obtain ⟨c,hc,ht⟩:=hsu pre p io post hs hb
      rw [hpo c hc] at ht
      cases ht
     | trustPeer card =>
      cases hst
      have hm : (.trustPeer card,io) ∈ calls := hs ▸ by simp
      exact trusted_valid h hm
     | _ => cases hst
   · cases he

/-- After successful calls from an empty directory, reopening it restores the state exactly when no invalid card is left
in force. -/
theorem survives_restart_iff (rmp : Codec Snapshot) (calls : List (Mutation P × Io))
    (st : FileStateStore P) (h : Runs (stepOk rmp) blank calls st) :
    ((∃ u, openStore rmp st.disk = .ok u ∧ u.inner.Same st.inner) ↔ Superseded calls) ∧
    ∀ b, rmp.encode (Snapshot.fromInner st.inner) = some b →
      ((∃ snapshot u, rmp.decode b = some snapshot ∧ snapshot.intoInner = .ok u ∧ u.Same st.inner) ↔
        Superseded calls) := by
 rw [← cardsValid_iff h]
 refine ⟨synced_of_stepOk h,?_⟩
 intro b hb
 rw [← intoInner_fromInner_iff,rmp.decode_encode hb]
 constructor
 · rintro ⟨snapshot,u,hsn,hu,hs⟩
   rw [← some.inj hsn] at hu
   exact ⟨u,hu,hs⟩
 · rintro ⟨u,hu,hs⟩
   exact ⟨_,u,rfl,hu,hs⟩

def plainIdentity : PeerIdentity := ⟨zero32, zero32, none⟩

def plainCalls : List (Mutation plainPrimitives × Io) :=
  [(.storeTrustedPeer ⟨plainIdentity.card plainPrimitives⟩, .done), (.storeGroupKey zero32 plainKey, .done)]

set_option maxRecDepth 8000 in
theorem survives_restart_plain : ∃ st, Runs (stepOk plainCodec) blank plainCalls st ∧
    ((∃ u, openStore plainCodec st.disk = .ok u ∧ u.inner.Same st.inner) ↔ Superseded plainCalls) ∧
    ∀ b, plainCodec.encode (Snapshot.fromInner st.inner) = some b →
      ((∃ snapshot u, plainCodec.decode b = some snapshot ∧ snapshot.intoInner = .ok u ∧
        u.Same st.inner) ↔ Superseded plainCalls) :=
 ⟨_,runs_of_exec rfl,survives_restart_iff plainCodec plainCalls _ (runs_of_exec rfl)⟩

def emptyExchangeCard : PeerCard plainPrimitives :=
  .new (plainIdentity.verifyingKey plainPrimitives) zero32 none

set_option maxRecDepth 8000 in
theorem stored_peer_blocks_restart : ∃ st,
    Runs (stepOk plainCodec) blank [(.storeTrustedPeer ⟨emptyExchangeCard⟩, .done)] st ∧
    openStore (P := plainPrimitives) plainCodec st.disk = fail (.corrupted
      "trusted peer card is invalid: peer card exchange key is empty") :=
 ⟨_,runs_of_exec rfl,rfl⟩

end Restart

end FileStateStore
end Enlace.State
