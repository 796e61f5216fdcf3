import Enlace.Peer.GroupEnvelope
import Enlace.Coordinator.Slot

set_option autoImplicit false

/-! Slots of the public-key mode: `PeerSlot::get_address` and `PeerSlot::watch_address`, and the
order in which either kind of watch delivers. -/
namespace Enlace.Peer
open ByteString Fallible WireFormat Crypto Kdf SlotRead Transition State Table Option NamespaceView PeerEnvelope

inductive PeerSlotScope where
  | pairwise
  | publisher (publisher : PeerId)
  | group (group : GroupId)
  deriving DecidableEq

structure PeerSlotValue (P : Primitives) where
  version : UInt64
  sender : PeerId
  signedBy : VerifyingKey P
  payload : Bytes
  via : TransportKind
  scope : PeerSlotScope
  keyId : Option GroupKeyId
  deriving DecidableEq

inductive PeerSlotError where
  | peerEnvelope (e : PeerEnvelopeError)
  | groupEnvelope (e : GroupEnvelopeError)
  | msgpackFailed
  | allTransportsFailed (failures : List (TransportKind × TransportError))
  deriving DecidableEq

def peerSlotInnerVersion : UInt8 := 1

structure PeerSlotInner where
  version : UInt8
  slotVersion : UInt64
  payload : Bytes
  deriving DecidableEq

structure OpenPeerSlotInner where
  version : UInt64
  payload : Bytes

structure SlotCodecs where
  peer : Codec PeerEnvelopeWire
  group : Codec GroupEnvelopeWire
  inner : Codec PeerSlotInner

variable (rmp : SlotCodecs)

def encodePeerSlotPayload (version : UInt64) (payload : Bytes) : Res PeerSlotError Bytes :=
  okOr .msgpackFailed (rmp.inner.encode ⟨peerSlotInnerVersion, version, payload⟩)

def decodePeerSlotPayload (bytes : Bytes) : Res PeerSlotError OpenPeerSlotInner := do
  let inner ← okOr .msgpackFailed (rmp.inner.decode bytes)
  ensure (inner.version == peerSlotInnerVersion) .msgpackFailed
  return ⟨inner.slotVersion, inner.payload⟩

def display (id : Bytes32) : Bytes := hex id.toList

def peerSlotStateKey (name : Bytes) : PeerSlotScope → Bytes
  | .pairwise => ascii "peer-slot" ++ [0] ++ ascii "pairwise" ++ [0] ++ name
  | .publisher peer => ascii "peer-slot" ++ [0] ++ ascii "publisher" ++ [0] ++ display peer ++ [0] ++ name
  | .group group => ascii "peer-slot" ++ [0] ++ ascii "group" ++ [0] ++ display group ++ [0] ++ name

variable {P : Primitives}

def NamespaceView.openGroupBytes (view : NamespaceView P) (kind : ChannelKind) (name bytes : Bytes) :
    Res GroupEnvelopeError (GroupEnvelopeMessage P) := do
  let envelope ← GroupEnvelope.fromBytes rmp.group bytes
  view.openGroupEnvelope envelope kind name

def NamespaceView.openSlotValue (view : NamespaceView P) (identity : PeerIdentity) (name : Bytes)
    (via : TransportKind) (address : PeerAddress) (scope : PeerSlotScope) (bytes : Bytes) :
    Res Unit (PeerSlotValue P) :=
  match address with
  | .group _ => do
    let message ← mapErr (fun _ => ()) (view.openGroupBytes rmp .slot name bytes)
    let inner ← mapErr (fun _ => ()) (decodePeerSlotPayload rmp message.payload)
    return ⟨inner.version, message.sender, message.signedBy, inner.payload, via, scope, some message.keyId⟩
  | _ => do
    let message ← mapErr (fun _ => ())
      (PeerEnvelope.openBytes rmp.peer bytes identity .slot name view.trustedSnapshot)
    let inner ← mapErr (fun _ => ()) (decodePeerSlotPayload rmp message.payload)
    return ⟨inner.version, message.sender, message.signedBy, inner.payload, via, scope, none⟩

structure PeerSlot where
  identity : PeerIdentity
  transports : List TransportKind
  name : Bytes

namespace PeerSlot

variable (slot : PeerSlot)

def opener (address : PeerAddress) (scope : PeerSlotScope) :
    Opener (NamespaceView P) (PeerSlotValue P) := fun view via bytes => do
  let value ← view.openSlotValue rmp slot.identity slot.name via address scope bytes
  return (value.version, value)

def getAddress (address : PeerAddress) (scope : PeerSlotScope)
    (responses : List (Response (NamespaceView P))) : Res PeerSlotError (Option (PeerSlotValue P)) := do
  let best ← read (slot.opener rmp address scope) .allTransportsFailed responses
  return best.map Item.value

def watchAddress (address : PeerAddress) (scope : PeerSlotScope) :
    Watch.Watcher (Fin slot.transports.length) (NamespaceView P) (PeerSlotValue P) where
  openItem view i bytes := slot.opener rmp address scope view (slot.transports.get i) bytes
  dedupCapacity := defaultDedupCapacity
  stateKey := peerSlotStateKey slot.name scope

def getPublisher (publisher : PeerId) (responses : List (Response (NamespaceView P))) :
    Res PeerSlotError (Option (PeerSlotValue P)) :=
  slot.getAddress rmp (.publisher publisher) (.publisher publisher) responses

def getGroup (group : GroupId) (responses : List (Response (NamespaceView P))) :
    Res PeerSlotError (Option (PeerSlotValue P)) :=
  slot.getAddress rmp (.group group) (.group group) responses

def watchPublisher (publisher : PeerId) :
    Watch.Watcher (Fin slot.transports.length) (NamespaceView P) (PeerSlotValue P) :=
  slot.watchAddress rmp (.publisher publisher) (.publisher publisher)

def watchGroup (group : GroupId) : Watch.Watcher (Fin slot.transports.length) (NamespaceView P) (PeerSlotValue P) :=
  slot.watchAddress rmp (.group group) (.group group)

section Format
open Msgpack

def innerFormat : Format PeerSlotInner :=
  (record 3 ((field "version" u8).pair ((field "slot_version" u64).pair (field "payload" bytes)))).imap
    (fun i => (i.version, i.slotVersion, i.payload)) (fun p => some ⟨p.1, p.2.1, p.2.2⟩) (fun _ => rfl)

end Format

section Plain
open PeerEnvelope

def plainCodecs : SlotCodecs :=
  ⟨PeerEnvelope.wireFormat.codec, GroupEnvelope.wireFormat.codec, innerFormat.codec⟩

def plainSlot : PeerSlot := ⟨plainIdentity 2 2, [.http], ascii "s"⟩

def plainGroup (n : UInt8) : GroupId := pad 32 [n]

def plainView : NamespaceView plainPrimitives where
  trustedPeers := Keyed.empty.insert (plainCard 1 1).peerId ⟨plainCard 1 1⟩ rfl
  groupKeys := Keyed.empty.insert (plainGroup 5, plainGroupKey.id) plainGroupKey rfl

def stored (bytes : Bytes) : List (Response (NamespaceView plainPrimitives)) :=
  [⟨plainView, .http, .ok (some (1, bytes))⟩]

end Plain
end PeerSlot
end Enlace.Peer

namespace Enlace.Watch
open ByteString Fallible WireFormat Crypto Kdf SlotRead Transition State Coordinator Peer

/-- When the tasks of a watch send in order, its receiver sees strictly increasing versions and payloads, in both modes.
-/
theorem watches_increasing {P : Primitives} (store : InMemoryInner P) :
    (∀ (rmp : Codec SignedInner) (c : Coordinator P) (name : Bytes)
      (as : List (Act (Fin (c.watched name).length) Unit))
      (s : Sys P (Fin (c.watched name).length) Unit (SlotValue P)),
      GuardedRuns (step (c.slotWatch rmp name)) SendsInOrder
        (init (c.slotWatch rmp name) store ()) as s →
      s.delivered.Pairwise fun x y => x.key < y.key) ∧
    ∀ (rmp : SlotCodecs) (slot : PeerSlot) (address : PeerAddress) (scope : PeerSlotScope)
      (view : NamespaceView P) (as : List (Act (Fin slot.transports.length) (NamespaceView P)))
      (s : Sys P (Fin slot.transports.length) (NamespaceView P) (PeerSlotValue P)),
      GuardedRuns (step (slot.watchAddress rmp address scope)) SendsInOrder
        (init (slot.watchAddress rmp address scope) store view) as s →
      s.delivered.Pairwise fun x y => x.key < y.key := by
 refine ⟨?_,?_⟩
 · intro rmp c name as s h
   exact delivered_increasing (c.slotWatch rmp name) h
 · intro rmp slot address scope view as s h
   exact delivered_increasing (slot.watchAddress rmp address scope) h

section Plain

def plainWatch (transports : List TransportKind) : Coordinator plainPrimitives :=
  { plainCoordinator defaultMaxPlaintextBytes with transports := transports }

def plainWatcher (transports : List TransportKind) :
    Watcher (Fin ((plainWatch transports).watched (ascii "s")).length) Unit
      (SlotValue plainPrimitives) :=
  (plainWatch transports).slotWatch signedInnerFormat.codec (ascii "s")

def plainStart (transports : List TransportKind) :
    Sys plainPrimitives (Fin ((plainWatch transports).watched (ascii "s")).length) Unit
      (SlotValue plainPrimitives) :=
  init (plainWatcher transports) .empty ()

def plainSealed (version : UInt64) : Bytes :=
  (toOption ((plainWatch []).sealPayload signedInnerFormat.codec zeroNonce .slot (ascii "s")
    (ascii "v") (some version))).getD []

def untilSend {ι : Type} (i : ι) (version : UInt64) : List (Act ι Unit) :=
  .next i (.item version (plainSealed version)) :: List.replicate 7 (.run i)

/-- The second task takes its pair while the first still holds a smaller one, and may send before it. -/
def raced (overtakes : Bool) : List (Act (Fin ((plainWatch [.http, .pkarr]).watched (ascii "s")).length) Unit) :=
  let first := ⟨0, by decide⟩
  let second := ⟨1, by decide⟩
  untilSend first 1 ++ untilSend second 2 ++
    (if overtakes then [.run second, .run first] else [.run first, .run second]) ++ [.recv, .recv]

theorem watches_increasing_plain : ∃ s,
    GuardedRuns (step (plainWatcher [.http, .pkarr])) SendsInOrder (plainStart [.http, .pkarr]) (raced false) s ∧
    s.delivered.map Item.version = [1, 2] ∧ s.delivered.Pairwise fun x y => x.key < y.key := by
 refine exists_and₂ (by decide +kernel) fun s hs _=>?_
 exact (watches_increasing .empty).1 signedInnerFormat.codec (plainWatch [.http,.pkarr]) (ascii "s") _ s hs

theorem stale_delivered : ∃ s,
    Runs (step (plainWatcher [.http, .pkarr])) (plainStart [.http, .pkarr]) (raced true) s ∧
    s.delivered.map Item.version = [2, 1] :=
 by decide +kernel

end Plain
end Enlace.Watch
