import Enlace.Peer.Slot

set_option autoImplicit false

/-! Puts of the public-key mode: `put_for_peers`, `put_publisher_for_peers` and `put_group`, and the
versions that one endpoint uses. Recipients and group keys are given with their nonces. -/
namespace Enlace.Peer
open ByteString Fallible Crypto Kdf SlotRead State Transition Coordinator Endpoint

variable {P : Primitives}

def NamespaceView.resolveGroupKeys (view : NamespaceView P)
    (requested : List ((GroupId × GroupKeyId) × Nonce)) :
    Res GroupEnvelopeError (List ((GroupId × GroupKey) × Nonce)) := do
  ensure (!requested.isEmpty) .noGroupKeys
  requested.mapM fun r => do
    let key ← okOr .missingGroupKey (view.groupKeys.get r.1)
    return ((r.1.1, key), r.2)

def NamespaceView.sealGroupEnvelope (view : NamespaceView P) (identity : PeerIdentity)
    (kind : ChannelKind) (name payload : Bytes) (requested : List ((GroupId × GroupKeyId) × Nonce)) :
    Res GroupEnvelopeError GroupEnvelope := do
  let keys ← view.resolveGroupKeys requested
  GroupEnvelope.sealTo P identity kind name payload keys

variable {recipients : List (PeerCard P × Nonce)} {scope : PeerSlotScope} {version : UInt64}
  {view : NamespaceView P}

namespace PeerSlot

variable (rmp : SlotCodecs) (slot : PeerSlot)

def withNextVersion (store : InMemoryInner P) (scope : PeerSlotScope)
    (go : UInt64 → Res PeerSlotError Outgoing) : InMemoryInner P × Res PeerSlotError Outgoing :=
  let next := store.nextLocalSlotVersion (peerSlotStateKey slot.name scope)
  (next.1, expect next.2 >>= go)

/-- `put_bytes` up to the sends. -/
def putBytes (P : Primitives) (addresses : List PeerAddress) (version : UInt64) (bytes : Bytes) : Outgoing where
  version := version
  bytes := bytes
  ids := slot.transports.flatMap fun kind =>
    addresses.map fun address => (kind, peerTransportId P kind address .slot slot.name)

def sealForPeers (recipients : List (PeerCard P × Nonce)) (payload : Bytes) (version : UInt64) :
    Res PeerSlotError Bytes := do
  let payload ← encodePeerSlotPayload rmp version payload
  let envelope ← mapErr .peerEnvelope
    (PeerEnvelope.sealTo slot.identity .slot slot.name payload recipients)
  mapErr .peerEnvelope (envelope.toBytes rmp.peer)

def putForPeers (store : InMemoryInner P) (recipients : List (PeerCard P × Nonce)) (payload : Bytes) :
    InMemoryInner P × Res PeerSlotError Outgoing :=
  slot.withNextVersion store .pairwise fun version => do
    let bytes ← slot.sealForPeers rmp recipients payload version
    return slot.putBytes P (recipients.map fun r => .pairwise r.1.peerId) version bytes

def putPublisherForPeers (store : InMemoryInner P) (recipients : List (PeerCard P × Nonce))
    (payload : Bytes) : InMemoryInner P × Res PeerSlotError Outgoing :=
  let publisher := slot.identity.peerId P
  slot.withNextVersion store (.publisher publisher) fun version => do
    let bytes ← slot.sealForPeers rmp recipients payload version
    return slot.putBytes P [.publisher publisher] version bytes

def putGroup (store : InMemoryInner P) (view : NamespaceView P) (group : GroupId)
    (keyIds : List (GroupKeyId × Nonce)) (payload : Bytes) :
    InMemoryInner P × Res PeerSlotError Outgoing :=
  slot.withNextVersion store (.group group) fun version => do
    let payload ← encodePeerSlotPayload rmp version payload
    let requested := keyIds.map fun k => ((group, k.1), k.2)
    let envelope ← mapErr .groupEnvelope
      (view.sealGroupEnvelope slot.identity .slot slot.name payload requested)
    let bytes ← mapErr .groupEnvelope (envelope.toBytes rmp.group)
    return slot.putBytes P [.group group] version bytes

def getPairwise (responses : List (Response (NamespaceView P))) : Res PeerSlotError (Option (PeerSlotValue P)) :=
  slot.getAddress rmp (.pairwise (slot.identity.peerId P)) .pairwise responses

def watchPairwise : Watch.Watcher (Fin slot.transports.length) (NamespaceView P) (PeerSlotValue P) :=
  slot.watchAddress rmp (.pairwise (slot.identity.peerId P)) .pairwise

variable {rmp slot}

variable {store : InMemoryInner P} {out : Outgoing}

lemma withNextVersion_version {go : UInt64 → Res PeerSlotError Outgoing}
    (hgo : ∀ version out, go version = .ok out → out.version = version)
    (h : (slot.withNextVersion store scope go).2 = .ok out) :
    (store.nextLocalSlotVersion (peerSlotStateKey slot.name scope)).2 = some out.version := by
 obtain ⟨version,hv,ho⟩:=bind_eq_ok.mp h
 rw [hgo version out ho]
 exact expect_eq_ok.mp hv

lemma version_of_putBytes {addrs : List PeerAddress} {sealed : Res PeerSlotError Bytes}
    (h : (do let bytes ← sealed; return slot.putBytes P addrs version bytes) = .ok out) :
    out.version = version := by
 obtain ⟨bytes,_,ho⟩:=bind_eq_ok.mp h
 rw [← pure_eq_ok.mp ho]
 rfl

variable {payload : Bytes}

lemma putForPeers_version (h : (slot.putForPeers rmp store recipients payload).2 = .ok out) :
    (store.nextLocalSlotVersion (peerSlotStateKey slot.name .pairwise)).2 = some out.version := by
 apply withNextVersion_version _ h
 intro version out ho
 exact version_of_putBytes ho

lemma putPublisherForPeers_version (h : (slot.putPublisherForPeers rmp store recipients payload).2 = .ok out) :
    (store.nextLocalSlotVersion
      (peerSlotStateKey slot.name (.publisher (slot.identity.peerId P)))).2 = some out.version := by
 apply withNextVersion_version _ h
 intro version out ho
 exact version_of_putBytes ho

lemma putGroup_version {group : GroupId} {keyIds : List (GroupKeyId × Nonce)}
    (h : (slot.putGroup rmp store view group keyIds payload).2 = .ok out) :
    (store.nextLocalSlotVersion (peerSlotStateKey slot.name (.group group))).2 = some out.version := by
 apply withNextVersion_version _ h
 intro version out ho
 obtain ⟨bytes,_,ho⟩:=bind_eq_ok.mp ho
 obtain ⟨envelope,_,ho⟩:=bind_eq_ok.mp ho
 exact version_of_putBytes ho

lemma opener_version {address : PeerAddress} {via : TransportKind} {bytes : Bytes} {value : PeerSlotValue P}
    (h : slot.opener rmp address scope view via bytes = .ok (version, value)) : value.version = version := by
 simp only [opener,bind_eq_ok,pure_eq_ok,Prod.mk.injEq] at h
 obtain ⟨_,_,rfl,rfl⟩:=h
 rfl

end PeerSlot

structure PeerEndpoint where
  identity : PeerIdentity
  transports : List TransportKind

inductive PeerPutTarget (P : Primitives) where
  | peers (recipients : List (PeerCard P × Nonce))
  | publisherForPeers (recipients : List (PeerCard P × Nonce))
  | group (group : GroupId) (keyIds : List (GroupKeyId × Nonce))

structure PeerPut (P : Primitives) where
  name : Bytes
  payload : Bytes
  target : PeerPutTarget P

namespace PeerEndpoint

variable (rmp : SlotCodecs) (e : PeerEndpoint)

def slot (name : Bytes) : PeerSlot := ⟨e.identity, e.transports, name⟩

def putScope (P : Primitives) : PeerPutTarget P → PeerSlotScope
  | .peers _ => .pairwise
  | .publisherForPeers _ => .publisher (e.identity.peerId P)
  | .group group _ => .group group

def put (store : InMemoryInner P) (view : NamespaceView P) (p : PeerPut P) :
    InMemoryInner P × Res PeerSlotError Outgoing :=
  match p.target with
  | .peers recipients => (e.slot p.name).putForPeers rmp store recipients p.payload
  | .publisherForPeers recipients => (e.slot p.name).putPublisherForPeers rmp store recipients p.payload
  | .group group keyIds => (e.slot p.name).putGroup rmp store view group keyIds p.payload

def get (k : Bytes × PeerSlotScope) (responses : List (Response (NamespaceView P))) :
    Res PeerSlotError (Option (PeerSlotValue P)) :=
  match k.2 with
  | .pairwise => (e.slot k.1).getPairwise rmp responses
  | .publisher publisher => (e.slot k.1).getPublisher rmp publisher responses
  | .group group => (e.slot k.1).getGroup rmp group responses

def watch (k : Bytes × PeerSlotScope) : Watch.Watcher (Fin e.transports.length) (NamespaceView P) (PeerSlotValue P) :=
  match k.2 with
  | .pairwise => (e.slot k.1).watchPairwise rmp
  | .publisher publisher => (e.slot k.1).watchPublisher rmp publisher
  | .group group => (e.slot k.1).watchGroup rmp group

lemma put_store (store : InMemoryInner P) (view : NamespaceView P) (p : PeerPut P) : (e.put rmp store view p).1 =
      (store.nextLocalSlotVersion (peerSlotStateKey p.name (e.putScope P p.target))).1 := by
 unfold put
 cases p.target with
 | peers _ => rfl
 | publisherForPeers _ => rfl
 | group _ _ => rfl

lemma put_version (store : InMemoryInner P) (view : NamespaceView P) (p : PeerPut P) (out : Outgoing)
    (h : (e.put rmp store view p).2 = .ok out) :
    (store.nextLocalSlotVersion (peerSlotStateKey p.name (e.putScope P p.target))).2 = some out.version := by
 unfold put at h
 cases ht : p.target with
 | peers recipients =>
  rw [ht] at h
  have hn:=PeerSlot.putForPeers_version h
  exact hn
 | publisherForPeers recipients =>
  rw [ht] at h
  have hn:=PeerSlot.putPublisherForPeers_version h
  exact hn
 | group group keyIds =>
  rw [ht] at h
  have hn:=PeerSlot.putGroup_version h
  exact hn

lemma watch_stateKey (k : Bytes × PeerSlotScope) : (e.watch rmp (P := P) k).stateKey = peerSlotStateKey k.1 k.2 := by
 obtain ⟨name,scope⟩:=k
 cases scope with
 | pairwise => rfl
 | publisher _ => rfl
 | group _ => rfl

lemma watch_version (k : Bytes × PeerSlotScope) (view : NamespaceView P)
    (i : Fin e.transports.length) (bytes : Bytes) (version : UInt64) (value : PeerSlotValue P)
    (h : (e.watch rmp k).openItem view i bytes = .ok (version, value)) : value.version = version := by
 obtain ⟨name,scope⟩:=k
 cases scope with
 | pairwise | publisher _ | group _ => exact PeerSlot.opener_version h

/-- A slot of the public-key mode is known by its name and scope. A read records nothing. -/
def slotMode : Endpoint.Mode P (Bytes × PeerSlotScope) (PeerPut P) (NamespaceView P) (PeerSlotValue P)
    Outgoing PeerSlotError where
  stateKey k := peerSlotStateKey k.1 k.2
  putKey p := (p.name, e.putScope P p.target)
  put := e.put rmp
  putVersion := Outgoing.version
  get k responses := do
    let value ← e.get rmp k responses
    return (value, none)
  version := PeerSlotValue.version
  since store k := (store.lastSeenSlotVersion (peerSlotStateKey k.1 k.2)).getD 0
  tasks _ := e.transports.length
  watch := e.watch rmp
  put_store := e.put_store rmp
  put_version := e.put_version rmp
  watch_stateKey := e.watch_stateKey rmp
  watch_version := e.watch_version rmp

/-- In every run in which the state has reached, by the time of a put, what was read of its slot, the put takes a
version above every one put, read or delivered on its name and scope before. -/
theorem peer_slot_versions_ascend (rmp : SlotCodecs) (e : PeerEndpoint) (store : InMemoryInner P)
    (view : NamespaceView P) (as : List (Endpoint.Act (e.slotMode rmp (P := P))))
    (s : Endpoint.Sys (e.slotMode rmp))
    (h : GuardedRuns Endpoint.step Endpoint.Known (Endpoint.start (e.slotMode rmp) store view) as s) :
    Endpoint.Ascending s.log :=
 ascending_of_known h

section Plain
open PeerEnvelope PeerSlot

def plainEndpoint : PeerEndpoint := ⟨plainIdentity 2 2, [.http]⟩

def plainMode : Endpoint.Mode plainPrimitives (Bytes × PeerSlotScope) (PeerPut plainPrimitives)
    (NamespaceView plainPrimitives) (PeerSlotValue plainPrimitives) Outgoing PeerSlotError :=
  plainEndpoint.slotMode plainCodecs

def groupSlot : Bytes × PeerSlotScope := (ascii "s", .group (plainGroup 5))

def groupSealedAt (version : UInt64) : Bytes :=
  let payload := (toOption (encodePeerSlotPayload plainCodecs version (ascii "v"))).getD []
  (toOption (do
    let envelope ← GroupEnvelope.sealTo plainPrimitives (plainIdentity 1 1) .slot (ascii "s") payload
      [((plainGroup 5, plainGroupKey), plainNonce)]
    envelope.toBytes plainCodecs.group)).getD []

def readGroup (version : UInt64) : List (Endpoint.Act plainMode) :=
  [.get groupSlot (stored (groupSealedAt version)), .record 0, .ret 0]

def writeGroup : Endpoint.Act plainMode :=
  .put ⟨ascii "s", ascii "v", .group (plainGroup 5) [(plainGroupKey.id, plainNonce)]⟩

def readWatchPut : List (Endpoint.Act plainMode) :=
  let task := ⟨0, by decide⟩
  readGroup 5 ++ [.watch groupSlot, .task groupSlot 0 (.next task (.item 5 (groupSealedAt 5)))] ++
    List.replicate 8 (.task groupSlot 0 (.run task)) ++ [.task groupSlot 0 .recv, writeGroup]

set_option maxRecDepth 8000 in
theorem peer_slot_versions_ascend_plain : ∃ s : Endpoint.Sys plainMode,
    GuardedRuns Endpoint.step Endpoint.Known (Endpoint.start plainMode .empty plainView) readWatchPut s ∧
    s.log = [.got groupSlot 5, .delivered groupSlot 5, .put groupSlot 6] ∧
    Endpoint.Ascending s.log := by
 have hr : GuardedRuns step Endpoint.Known (start plainMode .empty plainView) readWatchPut _ :=
  guardedRuns_of_execIf rfl
 exact ⟨_,hr,rfl,peer_slot_versions_ascend plainCodecs plainEndpoint .empty plainView readWatchPut _ hr⟩

set_option maxRecDepth 8000 in
/-- A fresh endpoint reads version 5 of a group's slot, and puts version 1. -/
theorem put_below_read : ∃ s : Endpoint.Sys plainMode,
    Runs Endpoint.step (Endpoint.start plainMode .empty plainView) (readGroup 5 ++ [writeGroup]) s ∧
    s.log = [.got groupSlot 5, .put groupSlot 1] ∧ ¬ Endpoint.Ascending s.log := by
 refine exists_and₂ ⟨_,runs_of_exec rfl,rfl⟩ fun s _ hl h=>?_
 rw [hl] at h
 have hlt : (5 : UInt64) < 1 := List.rel_of_pairwise_cons h List.mem_cons_self rfl rfl
 exact absurd hlt (by decide)

end Plain

end PeerEndpoint
end Enlace.Peer
