import Enlace.Peer.Envelope
import Enlace.Lib.Table

set_option autoImplicit false

/-! The in-memory endpoint state (`state.rs`). Trusted peers are held under their own id and
group keys under their own key id. -/
namespace Enlace.State
open ByteString Crypto Peer Table Keyed Fallible WireFormat Option

abbrev StoredPeerIdentity := PeerIdentity

structure InMemoryInner (P : Primitives) where
  localSlotVersions : Map Bytes UInt64
  lastSeenSlotVersions : Map Bytes UInt64
  irohKeypair : Option Bytes32
  peerIdentity : Option StoredPeerIdentity
  trustedPeers : Keyed PeerId (TrustedPeer P) fun id peer => peer.peerId = id
  groupKeys : Keyed (GroupId × GroupKeyId) GroupKey fun k key => key.id = k.2

namespace InMemoryInner

variable {P : Primitives}

def empty : InMemoryInner P := ⟨.empty, .empty, none, none, .empty, .empty⟩

structure Same (s u : InMemoryInner P) : Prop where
  localSlotVersions : ∀ slot, s.localSlotVersions.get slot = u.localSlotVersions.get slot
  lastSeenSlotVersions : ∀ slot, s.lastSeenSlotVersions.get slot = u.lastSeenSlotVersions.get slot
  irohKeypair : s.irohKeypair = u.irohKeypair
  peerIdentity : s.peerIdentity = u.peerIdentity
  trustedPeers : ∀ id, s.trustedPeers.get id = u.trustedPeers.get id
  groupKeys : ∀ k, s.groupKeys.get k = u.groupKeys.get k

lemma Same.refl (s : InMemoryInner P) : Same s s :=
 ⟨fun _=>rfl,fun _=>rfl,rfl,rfl,fun _=>rfl,fun _=>rfl⟩

lemma Same.symm {s u : InMemoryInner P} (h : Same s u) : Same u s :=
 ⟨fun k=>(h.1 k).symm,fun k=>(h.2 k).symm,h.3.symm,h.4.symm,fun k=>(h.5 k).symm,fun k=>(h.6 k).symm⟩

lemma Same.trans {s u v : InMemoryInner P} (h : Same s u) (h' : Same u v) : Same s v :=
 ⟨fun k=>(h.1 k).trans (h'.1 k),fun k=>(h.2 k).trans (h'.2 k),h.3.trans h'.3,h.4.trans h'.4,
  fun k=>(h.5 k).trans (h'.5 k),fun k=>(h.6 k).trans (h'.6 k)⟩

variable (s : InMemoryInner P)

/-- The entry is created before the addition is checked, so an overflow leaves it behind. -/
def nextLocalSlotVersion (slot : Bytes) : InMemoryInner P × Option UInt64 :=
  let observed := (s.lastSeenSlotVersions.get slot).getD 0
  let entry := (s.localSlotVersions.get slot).getD 0
  let opened := s.localSlotVersions.insert slot entry trivial
  let floor := max entry observed
  if floor = UInt64.ofNat (2^64 - 1) then ({ s with localSlotVersions := opened }, none)
  else ({ s with localSlotVersions := opened.insert slot (floor + 1) trivial }, some (floor + 1))

def lastSeenSlotVersion (slot : Bytes) : Option UInt64 := s.lastSeenSlotVersions.get slot

def advances (slot : Bytes) (version : UInt64) : Bool :=
  (s.lastSeenSlotVersions.get slot).all fun current => !decide (version ≤ current)

def recordSeenSlotVersion (slot : Bytes) (version : UInt64) : InMemoryInner P × Bool :=
  if s.advances slot version then
    ({ s with lastSeenSlotVersions := s.lastSeenSlotVersions.insert slot version trivial }, true)
  else (s, false)

def storeIrohKeypair (secret : Bytes32) : InMemoryInner P := { s with irohKeypair := some secret }

def storePeerIdentity (identity : PeerIdentity) : InMemoryInner P :=
  { s with peerIdentity := some identity }

def trustedPeer (id : PeerId) : Option (TrustedPeer P) := s.trustedPeers.get id

def listTrustedPeers : List (TrustedPeer P) := s.trustedPeers.entries.map Prod.snd

def storeTrustedPeer (peer : TrustedPeer P) : InMemoryInner P :=
  { s with trustedPeers := s.trustedPeers.insert peer.peerId peer rfl }

def removeTrustedPeer (id : PeerId) : InMemoryInner P × Bool :=
  ({ s with trustedPeers := s.trustedPeers.erase id }, (s.trustedPeers.get id).isSome)

def groupKeysOf (group : GroupId) : List GroupKey :=
  (s.groupKeys.entries.filter fun e => e.1.1 == group).map Prod.snd

def storeGroupKey (group : GroupId) (key : GroupKey) : InMemoryInner P :=
  { s with groupKeys := s.groupKeys.insert (group, key.id) key rfl }

def removeGroupKey (group : GroupId) (keyId : GroupKeyId) : InMemoryInner P × Bool :=
  ({ s with groupKeys := s.groupKeys.erase (group, keyId) }, (s.groupKeys.get (group, keyId)).isSome)

lemma recordSeenSlotVersion_same {slot : Bytes} {version : UInt64}
    (h : (s.recordSeenSlotVersion slot version).2 = false) : Same (s.recordSeenSlotVersion slot version).1 s := by
 unfold recordSeenSlotVersion at h ⊢
 split at h
 · cases h
 · rename_i hn
   rw [if_neg hn]
   exact Same.refl s

lemma removeTrustedPeer_same {id : PeerId} (h : (s.removeTrustedPeer id).2 = false) :
    Same (s.removeTrustedPeer id).1 s :=
 { Same.refl s with trustedPeers := get_erase_of_absent h }

lemma storeTrustedPeer_same {peer : TrustedPeer P} (h : s.trustedPeers.get peer.peerId = some peer) :
    Same (s.storeTrustedPeer peer) s :=
 { Same.refl s with trustedPeers := get_insert_of_present h rfl }

lemma storeGroupKey_same {group : GroupId} {key : GroupKey}
    (h : s.groupKeys.get (group, key.id) = some key) : Same (s.storeGroupKey group key) s :=
 { Same.refl s with groupKeys := get_insert_of_present h rfl }

lemma removeGroupKey_same {group : GroupId} {keyId : GroupKeyId}
    (h : (s.removeGroupKey group keyId).2 = false) : Same (s.removeGroupKey group keyId).1 s :=
 { Same.refl s with groupKeys := get_erase_of_absent h }

def floor (slot : Bytes) : UInt64 :=
  max ((s.localSlotVersions.get slot).getD 0) ((s.lastSeenSlotVersions.get slot).getD 0)

lemma nextLocalSlotVersion_snd (slot : Bytes) : (s.nextLocalSlotVersion slot).2 =
    if s.floor slot = UInt64.ofNat (2^64 - 1) then none else some (s.floor slot + 1) :=
 apply_ite Prod.snd _ _ _

lemma lastSeenSlotVersions_next (slot : Bytes) :
    (s.nextLocalSlotVersion slot).1.lastSeenSlotVersions = s.lastSeenSlotVersions :=
 (apply_ite (lastSeenSlotVersions ∘ Prod.fst) _ _ _).trans (ite_self _)

lemma get_localSlotVersions_next (slot k : Bytes) : (s.nextLocalSlotVersion slot).1.localSlotVersions.get k =
      if k = slot then some ((s.nextLocalSlotVersion slot).2.getD ((s.localSlotVersions.get slot).getD 0))
      else s.localSlotVersions.get k := by
 let opened:=s.localSlotVersions.insert slot ((s.localSlotVersions.get slot).getD 0) trivial
 have hn : (s.nextLocalSlotVersion slot).1.localSlotVersions =
   if s.floor slot = UInt64.ofNat (2^64 - 1) then opened
   else opened.insert slot (s.floor slot+1) trivial :=
  apply_ite (localSlotVersions ∘ Prod.fst) _ _ _
 rw [hn,nextLocalSlotVersion_snd]
 split
 · exact get_insert _ _ _ _ _
 · rw [get_insert,get_insert]
   split
   · rfl
   · rfl

lemma floor_lt_next {slot : Bytes} {v : UInt64} (h : (s.nextLocalSlotVersion slot).2 = some v) :
    s.floor slot < v := by
 rw [nextLocalSlotVersion_snd] at h
 split at h
 · cases h
 · rename_i hmax
   rw [← Option.some.inj h,UInt64.lt_iff_toNat_lt,UInt64.toNat_add]
   have hne : (s.floor slot).toNat ≠ 2^64 - 1 := fun he=>hmax (UInt64.toNat_inj.mp he)
   have hlt:=(s.floor slot).toNat_lt
   change _ < (_+1) % 2^64
   omega

lemma floor_nextLocalSlotVersion (slot k : Bytes) : (s.nextLocalSlotVersion slot).1.floor k =
    if k = slot then (s.nextLocalSlotVersion slot).2.getD (s.floor slot) else s.floor k := by
 rw [floor,lastSeenSlotVersions_next,get_localSlotVersions_next]
 split
 · rename_i hk
   subst hk
   cases hn : (s.nextLocalSlotVersion k).2 with
   | none => rfl
   | some v =>
    have hs : (s.lastSeenSlotVersions.get k).getD 0 ≤ s.floor k := le_max_right _ _
    exact max_eq_left (hs.trans (s.floor_lt_next hn).le)
 · rfl

lemma floor_recordSeenSlotVersion (slot k : Bytes) (version : UInt64) :
    (s.recordSeenSlotVersion slot version).1.floor k =
      if k = slot then max (s.floor slot) version else s.floor k := by
 by_cases hk : k = slot
 · subst hk
   rw [if_pos rfl]
   unfold recordSeenSlotVersion
   split
   · rename_i ha
     have hc : (s.lastSeenSlotVersions.get k).getD 0 ≤ version := by
      cases hs : s.lastSeenSlotVersions.get k with
      | none => exact UInt64.zero_le
      | some current =>
       rw [advances,hs] at ha
       exact (not_le.mp (by simpa using ha)).le
     simp only [floor,get_insert,if_true,Option.getD_some]
     rw [max_assoc,max_eq_right hc]
   · rename_i ha
     cases hs : s.lastSeenSlotVersions.get k with
     | none => exact absurd (by rw [advances,hs]; rfl) ha
     | some current =>
      rw [advances,hs] at ha
      have hle : version ≤ current := by simpa using ha
      have hf : current ≤ s.floor k := by
       rw [floor,hs]
       exact le_max_right _ _
      exact (max_eq_left (hle.trans hf)).symm
 · unfold recordSeenSlotVersion
   split
   · simp only [floor,get_insert,if_neg hk]
   · rfl

def CardsValid : Prop := ∀ id peer, s.trustedPeers.get id = some peer → peer.card.validate = .ok ()

lemma CardsValid.of_same {s u : InMemoryInner P} (h : Same s u) (hs : s.CardsValid) :
    u.CardsValid := fun id peer hp=>hs id peer ((h.trustedPeers id).trans hp)

end InMemoryInner

/-! The persisted form of the endpoint state (`Snapshot` in `state.rs`). -/

def snapshotVersion : UInt8 := 1

/-- The text of a backend failure is not modelled. -/
inductive StateError where
  | backend
  | corrupted (msg : String)
  | unsupported (msg : String)
  deriving DecidableEq

structure SnapshotPeerIdentity where
  signing : Bytes32
  exchange : Bytes32
  irohSecret : Option Bytes32
  deriving DecidableEq

structure SnapshotIrohEndpoint where
  endpointId : Bytes32
  relayUrls : List Bytes
  directAddrs : List Bytes
  deriving DecidableEq

structure SnapshotTrustedPeer where
  peerId : Bytes32
  signingKey : Bytes32
  exchangeKey : Bytes32
  irohEndpoint : Option SnapshotIrohEndpoint
  deriving DecidableEq

structure SnapshotGroupKey where
  group : Bytes32
  id : Bytes32
  secret : Bytes32
  deriving DecidableEq

structure Snapshot where
  version : UInt8
  localSlotVersions : List (Bytes × UInt64)
  lastSeenSlotVersions : List (Bytes × UInt64)
  irohKeypair : Option Bytes32
  peerIdentity : Option SnapshotPeerIdentity
  trustedPeers : List SnapshotTrustedPeer
  groupKeys : List SnapshotGroupKey
  deriving DecidableEq

variable {P : Primitives}

def SnapshotIrohEndpoint.ofEndpoint (e : IrohEndpointAddr P) : SnapshotIrohEndpoint :=
  ⟨e.endpointId, e.relayUrls.map Subtype.val, e.directAddrs.map Subtype.val⟩

def SnapshotTrustedPeer.ofPeer (peer : TrustedPeer P) : SnapshotTrustedPeer where
  peerId := peer.card.peerId
  signingKey := peer.card.signingKey.toBytes
  exchangeKey := peer.card.exchangeKey
  irohEndpoint := peer.card.irohEndpoint.map .ofEndpoint

def SnapshotGroupKey.ofEntry (e : (GroupId × GroupKeyId) × GroupKey) : SnapshotGroupKey :=
  ⟨e.1.1, e.2.id, e.2.secret⟩

def Snapshot.fromInner (inner : InMemoryInner P) : Snapshot where
  version := snapshotVersion
  localSlotVersions := inner.localSlotVersions.entries
  lastSeenSlotVersions := inner.lastSeenSlotVersions.entries
  irohKeypair := inner.irohKeypair
  peerIdentity := inner.peerIdentity.map fun i => ⟨i.signing, i.exchange, i.irohSecret⟩
  trustedPeers := inner.trustedPeers.entries.map fun e => .ofPeer e.2
  groupKeys := inner.groupKeys.entries.map .ofEntry

def SnapshotIrohEndpoint.intoEndpoint (e : SnapshotIrohEndpoint) : Res StateError (IrohEndpointAddr P) := do
  let relayUrls ← e.relayUrls.mapM fun raw =>
    okOr (.corrupted "trusted peer relay url invalid") (Normal.parse P.parseUrl raw)
  let directAddrs ← e.directAddrs.mapM fun raw =>
    okOr (.corrupted "trusted peer direct address invalid") (Normal.parse P.parseSocketAddr raw)
  return ⟨e.endpointId, relayUrls, directAddrs⟩

def intoOptionalEndpoint : Option SnapshotIrohEndpoint → Res StateError (Option (IrohEndpointAddr P))
  | none => .ok none
  | some e => do
    let endpoint ← e.intoEndpoint
    return some endpoint

def SnapshotTrustedPeer.intoTrusted (p : SnapshotTrustedPeer) : Res StateError (TrustedPeer P) := do
  let signingKey ← okOr (.corrupted "trusted peer signing key invalid")
    (VerifyingKey.fromBytes P p.signingKey)
  let irohEndpoint ← intoOptionalEndpoint p.irohEndpoint
  mapErr (fun e => .corrupted ("trusted peer card is invalid: " ++ e.display))
    (TrustedPeer.tryFromCard ⟨p.peerId, signingKey, p.exchangeKey, irohEndpoint⟩)

def Snapshot.assemble (s : Snapshot) (trusted : List (TrustedPeer P)) : InMemoryInner P where
  localSlotVersions := .collect Prod.fst Prod.snd (fun _ => trivial) s.localSlotVersions
  lastSeenSlotVersions := .collect Prod.fst Prod.snd (fun _ => trivial) s.lastSeenSlotVersions
  irohKeypair := s.irohKeypair
  peerIdentity := s.peerIdentity.map fun i => ⟨i.signing, i.exchange, i.irohSecret⟩
  trustedPeers := .collect TrustedPeer.peerId id (fun _ => rfl) trusted
  groupKeys := .collect (fun k => (k.group, k.id)) (fun k => ⟨k.id, k.secret⟩) (fun _ => rfl) s.groupKeys

def Snapshot.intoInner (s : Snapshot) : Res StateError (InMemoryInner P) := do
  ensure (s.version == snapshotVersion)
    (.corrupted ("snapshot has unsupported version " ++ toString s.version))
  let trusted ← s.trustedPeers.mapM fun p => p.intoTrusted
  return s.assemble trusted

lemma intoOptionalEndpoint_ofEndpoint (e : Option (IrohEndpointAddr P)) :
    intoOptionalEndpoint (e.map .ofEndpoint) = .ok e := by
 cases e with
 | none => rfl
 | some e =>
  have hu : (e.relayUrls.map Subtype.val).mapM (fun raw=>okOr
    (.corrupted "trusted peer relay url invalid") (Normal.parse P.parseUrl raw)) =
    (.ok e.relayUrls : Res StateError _) :=
   mapM_map_ok fun t _=>okOr_eq_ok.mpr t.parse_val
  have ha : (e.directAddrs.map Subtype.val).mapM (fun raw=>okOr
    (.corrupted "trusted peer direct address invalid") (Normal.parse P.parseSocketAddr raw)) =
    (.ok e.directAddrs : Res StateError _) :=
   mapM_map_ok fun t _=>okOr_eq_ok.mpr t.parse_val
  simp only [map_some,intoOptionalEndpoint,SnapshotIrohEndpoint.intoEndpoint,
   SnapshotIrohEndpoint.ofEndpoint,hu,ha,ok_bind]
  rfl

open SnapshotTrustedPeer

lemma intoTrusted_ofPeer (peer : TrustedPeer P) :
    (ofPeer peer).intoTrusted = mapErr (fun e => .corrupted ("trusted peer card is invalid: " ++ e.display))
      (TrustedPeer.tryFromCard peer.card) := by
 simp only [intoTrusted,ofPeer, VerifyingKey.fromBytes_toBytes,okOr_some,ok_bind,intoOptionalEndpoint_ofEndpoint]

lemma intoTrusted_ofPeer_eq_ok {peer peer' : TrustedPeer P} :
    (ofPeer peer).intoTrusted = .ok peer' ↔ peer.card.validate = .ok () ∧ peer' = peer := by
 rw [intoTrusted_ofPeer,mapErr_eq_ok]
 simp only [TrustedPeer.tryFromCard,bind_eq_ok,pure_eq_ok]
 constructor
 · rintro ⟨_,hv,rfl⟩
   exact ⟨hv,rfl⟩
 · rintro ⟨hv,rfl⟩
   exact ⟨(),hv,rfl⟩

open Snapshot

lemma assemble_same (s : InMemoryInner P) :
    ((fromInner s).assemble (s.trustedPeers.entries.map Prod.snd)).Same s where
 localSlotVersions := s.localSlotVersions.get_collect_self
 lastSeenSlotVersions := s.lastSeenSlotVersions.get_collect_self
 irohKeypair := rfl
 peerIdentity := by
  cases hi : s.peerIdentity with
  | none => simp only [assemble,fromInner,hi,map_none]
  | some i => simp only [assemble,fromInner,hi,map_some]
 trustedPeers := s.trustedPeers.get_collect_entries Prod.snd
  (fun _ he=>Keyed.ok_of_mem he) (fun _ _=>rfl)
 groupKeys := by
  refine s.groupKeys.get_collect_entries SnapshotGroupKey.ofEntry ?_ (fun _ _=>rfl)
  intro e he
  have hid : e.2.id = e.1.2 := Keyed.ok_of_mem he
  exact Prod.ext rfl hid

lemma cardsValid_of_read {s u : InMemoryInner P} (h : (fromInner s).intoInner = .ok u) : s.CardsValid := by
 simp only [intoInner,bind_eq_ok] at h
 obtain ⟨_,_,trusted,ht,_⟩:=h
 intro id peer hp
 have hm : ofPeer peer ∈ (fromInner s).trustedPeers := List.mem_map.mpr ⟨_,Keyed.get_eq_some.mp hp,rfl⟩
 obtain ⟨_,_,hpeer⟩:=ok_of_mapM_ok ht hm
 exact (intoTrusted_ofPeer_eq_ok.mp hpeer).1

/-- A snapshot is read back to the state it was taken of exactly when all its cards are valid. -/
theorem intoInner_fromInner_iff (s : InMemoryInner P) :
    (∃ u, (fromInner s).intoInner = .ok u ∧ u.Same s) ↔ s.CardsValid := by
 constructor
 · rintro ⟨u,hu,_⟩
   exact cardsValid_of_read hu
 · intro hv
   have ht : (fromInner s).trustedPeers.mapM (fun p=>p.intoTrusted) = .ok (s.trustedPeers.entries.map Prod.snd) := by
    have hm : (fromInner s).trustedPeers = (s.trustedPeers.entries.map Prod.snd).map ofPeer := by
     rw [List.map_map]
     rfl
    rw [hm]
    refine mapM_map_ok fun peer hpeer=>intoTrusted_ofPeer_eq_ok.mpr ⟨?_,rfl⟩
    obtain ⟨e,he,rfl⟩:=List.mem_map.mp hpeer
    exact hv e.1 e.2 (Keyed.get_eq_some.mpr he)
   refine ⟨_,?_,assemble_same s⟩
   rw [intoInner,ht]
   rfl

lemma same_of_intoInner {s u : InMemoryInner P} (h : (fromInner s).intoInner = .ok u) : s.CardsValid ∧ u.Same s := by
 have hva : s.CardsValid := cardsValid_of_read h
 obtain ⟨v,hv,hs⟩:=(intoInner_fromInner_iff s).mpr hva
 rw [Except.ok.inj (h.symm.trans hv)]
 exact ⟨hva,hs⟩

lemma cardsValid_of_intoInner {s : Snapshot} {u : InMemoryInner P} (h : s.intoInner = .ok u) : u.CardsValid := by
 simp only [intoInner,bind_eq_ok,pure_eq_ok] at h
 obtain ⟨_,_,trusted,ht,rfl⟩:=h
 intro id peer hp
 obtain ⟨_,hm,rfl⟩:=Keyed.mem_of_get_collect hp
 obtain ⟨stored,_,hs⟩:=mem_of_mapM_ok ht hm
 simp only [intoTrusted,TrustedPeer.tryFromCard,bind_eq_ok,mapErr_eq_ok, pure_eq_ok] at hs
 obtain ⟨_,_,_,_,_,hv,rfl⟩:=hs
 exact hv

section Format
open Msgpack

def block32 : Format Bytes32 := block 32
def optionBlock32 : Format (Option Bytes32) := option block32 (notNil_block 32)
def slotVersions : Format (List (Bytes × UInt64)) := Msgpack.map str u64

def identityFormat : Format SnapshotPeerIdentity :=
  (record 3 ((field "signing" block32).pair ((field "exchange" block32).pair
    (field "iroh_secret" optionBlock32)))).imap
    (fun i => (i.signing, i.exchange, i.irohSecret)) (fun p => some ⟨p.1, p.2.1, p.2.2⟩) (fun _ => rfl)

def endpointFormat : Format SnapshotIrohEndpoint :=
  (record 3 ((field "endpoint_id" block32).pair ((field "relay_urls" (array str)).pair
    (field "direct_addrs" (array str))))).imap
    (fun e => (e.endpointId, e.relayUrls, e.directAddrs)) (fun p => some ⟨p.1, p.2.1, p.2.2⟩)
    (fun _ => rfl)

def trustedPeerFormat : Format SnapshotTrustedPeer :=
  (record 4 ((field "peer_id" block32).pair ((field "signing_key" block32).pair
    ((field "exchange_key" block32).pair (field "iroh_endpoint"
      (option endpointFormat fun h => notNil_record (by decide) _ h)))))).imap
    (fun p => (p.peerId, p.signingKey, p.exchangeKey, p.irohEndpoint))
    (fun p => some ⟨p.1, p.2.1, p.2.2.1, p.2.2.2⟩) (fun _ => rfl)

def groupKeyFormat : Format SnapshotGroupKey :=
  (record 3 ((field "group" block32).pair ((field "id" block32).pair (field "secret" block32)))).imap
    (fun k => (k.group, k.id, k.secret)) (fun p => some ⟨p.1, p.2.1, p.2.2⟩) (fun _ => rfl)

def snapshotFormat : Format Snapshot :=
  (record 7 ((field "version" u8).pair ((field "local_slot_versions" slotVersions).pair
    ((field "last_seen_slot_versions" slotVersions).pair ((field "iroh_keypair" optionBlock32).pair
    ((field "peer_identity" (option identityFormat fun h => notNil_record (by decide) _ h)).pair
    ((field "trusted_peers" (array trustedPeerFormat)).pair
    (field "group_keys" (array groupKeyFormat))))))))).imap
    (fun s => (s.version, s.localSlotVersions, s.lastSeenSlotVersions, s.irohKeypair,
      s.peerIdentity, s.trustedPeers, s.groupKeys))
    (fun p => some ⟨p.1, p.2.1, p.2.2.1, p.2.2.2.1, p.2.2.2.2.1, p.2.2.2.2.2.1, p.2.2.2.2.2.2⟩)
    (fun _ => rfl)

end Format
end Enlace.State
