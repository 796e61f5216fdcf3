import Mathlib.Data.List.Destutter
import Enlace.Peer.Envelope
import Enlace.Lib.Table

set_option autoImplicit false

/-! `GroupEnvelope`: one ciphertext per group key under a signature of the sender. A group key is
given together with the nonce that is drawn for its entry. -/
namespace Enlace.Peer
open ByteString Fallible WireFormat Crypto Kdf List Table

inductive GroupEnvelopeError where
  | name (e : NameError)
  | noGroupKeys
  | msgpackFailed
  | unsupportedVersion
  | missingGroupKey
  | aeadFailed
  | signatureInvalid
  | untrustedSender
  | wrongChannel
  deriving DecidableEq

def groupChannelKindFromCode : UInt8 → Res GroupEnvelopeError ChannelKind := kindFromCode .msgpackFailed

structure GroupEnvelopeEntry where
  group : GroupId
  keyId : GroupKeyId
  nonce : Nonce
  ciphertext : Bytes
  deriving DecidableEq

structure GroupEnvelope where
  sender : PeerId
  kind : ChannelKind
  name : Bytes
  entries : List GroupEnvelopeEntry
  signature : Signature
  deriving DecidableEq

structure GroupEnvelopeMessage (P : Primitives) where
  sender : PeerId
  signedBy : VerifyingKey P
  group : GroupId
  keyId : GroupKeyId
  payload : Bytes
  deriving DecidableEq

def GroupEnvelopeEntry.preimage (r : GroupEnvelopeEntry) : Option Bytes :=
  (writeLenPrefixed r.ciphertext).map (r.group.toList ++ r.keyId.toList ++ r.nonce.toList ++ ·)

def GroupEnvelope.signaturePreimage (e : GroupEnvelope) : Option Bytes := do
  let name ← writeLenPrefixed e.name
  let count ← writeLen e.entries.length
  let entries ← e.entries.mapM GroupEnvelopeEntry.preimage
  return ascii "enlace/v1/pkey/group/sig/" ++ [recordVersion] ++ e.sender.toList ++
    [channelKindCode e.kind] ++ name ++ count ++ entries.flatten

variable (P : Primitives)

def groupMessageKey (group : GroupId) (key : GroupKey) (kind : ChannelKind) (name : Bytes)
    (nonce : Nonce) : AeadKey :=
  hkdfSha256 P key.secret.toList []
    (ascii "enlace/v1/pkey/group" ++ group.toList ++ key.id.toList ++ kind.asBytes ++ name ++ nonce.toList) 32

def groupEnvelopeAad (sender : PeerId) (group : GroupId) (keyId : GroupKeyId) (kind : ChannelKind)
    (name : Bytes) (nonce : Nonce) : Bytes :=
  ascii "enlace/v1/pkey/group/aead/" ++ sender.toList ++ group.toList ++ keyId.toList ++
    kind.asBytes ++ name ++ nonce.toList

def groupEncrypt (key : AeadKey) (nonce : Nonce) (aad plaintext : Bytes) :
    Res GroupEnvelopeError Bytes := okOr .aeadFailed (P.encrypt key nonce aad plaintext)

def groupDecrypt (key : AeadKey) (nonce : Nonce) (aad ciphertext : Bytes) :
    Res GroupEnvelopeError Bytes := okOr .aeadFailed (P.decrypt key nonce aad ciphertext)

namespace GroupEnvelope

def sealEntry (sender : PeerIdentity) (kind : ChannelKind) (name payload : Bytes)
    (r : (GroupId × GroupKey) × Nonce) : Res GroupEnvelopeError GroupEnvelopeEntry := do
  let messageKey := groupMessageKey P r.1.1 r.1.2 kind name r.2
  let aad := groupEnvelopeAad (sender.peerId P) r.1.1 r.1.2.id kind name r.2
  let ciphertext ← groupEncrypt P messageKey r.2 aad payload
  return ⟨r.1.1, r.1.2.id, r.2, ciphertext⟩

def sealTo (sender : PeerIdentity) (kind : ChannelKind) (name payload : Bytes)
    (groupKeys : List ((GroupId × GroupKey) × Nonce)) : Res GroupEnvelopeError GroupEnvelope := do
  mapErr .name (validateName name)
  ensure (!groupKeys.isEmpty) .noGroupKeys
  let entries ← groupKeys.mapM (sealEntry P sender kind name payload)
  let envelope : GroupEnvelope := ⟨sender.peerId P, kind, name, entries, List.Vector.replicate 64 0⟩
  let preimage ← expect envelope.signaturePreimage
  return { envelope with signature := sign P sender.signing preimage }

def decryptEntry (e : GroupEnvelope) (kind : ChannelKind) (name : Bytes) (entry : GroupEnvelopeEntry)
    (k : GroupId × GroupKey) : Res GroupEnvelopeError Bytes :=
  groupDecrypt P (groupMessageKey P k.1 k.2 kind name entry.nonce) entry.nonce
    (groupEnvelopeAad e.sender k.1 k.2.id kind name entry.nonce) entry.ciphertext

variable {P}

structure Tried where
  hadMatchingKey : Bool
  hadAeadFailure : Bool

/-- The first payload that decrypts ends both loops, whether or not the signature holds. -/
def accept (e : GroupEnvelope) (sender : TrustedPeer P) (k : GroupId × GroupKey) (payload : Bytes) :
    Res GroupEnvelopeError (GroupEnvelopeMessage P) := do
  let preimage ← expect e.signaturePreimage
  ensure (verify P sender.card.signingKey preimage e.signature) .signatureInvalid
  return ⟨e.sender, sender.card.signingKey, k.1, k.2.id, payload⟩

/-- The body of the inner loop; an `error` is an early return. -/
def tryKey (e : GroupEnvelope) (kind : ChannelKind) (name : Bytes) (sender : TrustedPeer P)
    (entry : GroupEnvelopeEntry) (tried : Tried) (k : GroupId × GroupKey) :
    Except (Res GroupEnvelopeError (GroupEnvelopeMessage P)) Tried :=
  if k.1 != entry.group || k.2.id != entry.keyId then .ok tried else
    match e.decryptEntry P kind name entry k with
    | .ok payload => .error (e.accept sender k payload)
    | .error (.error .aeadFailed) => .ok ⟨true, true⟩
    | .error err => .error (.error err)

def tryEntry (e : GroupEnvelope) (kind : ChannelKind) (name : Bytes) (sender : TrustedPeer P)
    (groupKeys : List (GroupId × GroupKey)) (tried : Tried) (entry : GroupEnvelopeEntry) :
    Except (Res GroupEnvelopeError (GroupEnvelopeMessage P)) Tried :=
  groupKeys.foldlM (e.tryKey kind name sender entry) tried

def openWith (e : GroupEnvelope) (kind : ChannelKind) (name : Bytes) (trusted : List (TrustedPeer P))
    (groupKeys : List (GroupId × GroupKey)) : Res GroupEnvelopeError (GroupEnvelopeMessage P) := do
  mapErr .name (validateName name)
  ensure (e.kind == kind && e.name == name) .wrongChannel
  let sender ← okOr .untrustedSender (trusted.find? fun p => p.peerId == e.sender)
  mapErr (fun _ => .untrustedSender) sender.card.validate
  match e.entries.foldlM (e.tryEntry kind name sender groupKeys) ⟨false, false⟩ with
  | .error result => result
  | .ok tried =>
    if tried.hadAeadFailure && tried.hadMatchingKey then fail .aeadFailed else fail .missingGroupKey

def hit (e : GroupEnvelope) (kind : ChannelKind) (name : Bytes) (sender : TrustedPeer P)
    (entry : GroupEnvelopeEntry) (k : GroupId × GroupKey) :
    Option (Res GroupEnvelopeError (GroupEnvelopeMessage P)) :=
  if k.1 = entry.group ∧ k.2.id = entry.keyId then
    (toOption (e.decryptEntry P kind name entry k)).map (e.accept sender k)
  else none

variable {e : GroupEnvelope} {kind : ChannelKind} {name : Bytes} {sender : TrustedPeer P}
  {trusted : List (TrustedPeer P)} {groupKeys : List (GroupId × GroupKey)}

lemma exits_tryKey (entry : GroupEnvelopeEntry) (tried : Tried) (k : GroupId × GroupKey) :
    Exits (e.tryKey kind name sender entry tried k) (e.hit kind name sender entry k) := by
 unfold tryKey hit
 by_cases hk : k.1 = entry.group ∧ k.2.id = entry.keyId
 · rw [if_pos hk,hk.1,hk.2,bne_self_eq_false,bne_self_eq_false]
   unfold decryptEntry groupDecrypt
   cases P.decrypt _ _ _ _ with
   | some payload => exact .early _
   | none => exact .runs _
 · have hne : (k.1 != entry.group || k.2.id != entry.keyId) = true := by
    rw [Bool.or_eq_true,bne_iff_ne,bne_iff_ne]
    exact not_and_or.mp hk
   rw [if_neg hk,if_pos hne]
   exact .runs _

variable {m : GroupEnvelopeMessage P}

lemma exits_entries (e : GroupEnvelope) (kind : ChannelKind) (name : Bytes) (groupKeys : List (GroupId × GroupKey))
    (sender : TrustedPeer P) : Exits (e.entries.foldlM (e.tryEntry kind name sender groupKeys) ⟨false, false⟩)
      (e.entries.findSome? fun entry => groupKeys.findSome? (e.hit kind name sender entry)) :=
 exits_foldlM (fun tried entry=>exits_foldlM (exits_tryKey entry) groupKeys tried) _ _

/-- A message is opened from the first entry and key that decrypt, when the channel is the envelope's and the sender is
trusted with a valid card. -/
theorem openWith_ok (h : e.openWith kind name trusted groupKeys = .ok m) :
    e.kind = kind ∧ e.name = name ∧ ∃ sender, trusted.find? (fun p => p.peerId == e.sender) = some sender ∧
      sender.card.validate = .ok () ∧
      e.entries.findSome? (fun entry => groupKeys.findSome? (e.hit kind name sender entry)) = some (.ok m) := by
 simp only [openWith,bind_eq_ok,mapErr_eq_ok,ensure_eq_ok,okOr_eq_ok,Bool.and_eq_true,beq_iff_eq] at h
 obtain ⟨_,_,_,⟨hk,hn⟩,sender,hs,_,hv,hl⟩:=h
 refine ⟨hk,hn,sender,hs,hv,?_⟩
 have he:=e.exits_entries kind name groupKeys sender
 generalize e.entries.foldlM (e.tryEntry kind name sender groupKeys) ⟨false,false⟩ = x
  at he hl
 generalize e.entries.findSome? _ = o at he ⊢
 cases he with
 | early r => rw [← hl]
 | runs tried =>
  simp only at hl
  split at hl <;> cases hl

lemma accept_ok {k : GroupId × GroupKey} {payload : Bytes}
    (h : e.accept sender k payload = .ok m) : (∃ preimage, e.signaturePreimage = some preimage ∧
      verify P sender.card.signingKey preimage e.signature = true) ∧
      m = ⟨e.sender, sender.card.signingKey, k.1, k.2.id, payload⟩ := by
 simp only [accept,bind_eq_ok,expect_eq_ok,ensure_eq_ok,pure_eq_ok] at h
 obtain ⟨preimage,hp,_,hv,rfl⟩:=h
 exact ⟨⟨preimage,hp,hv⟩,rfl⟩

lemma hit_ok {entry : GroupEnvelopeEntry} {k : GroupId × GroupKey}
    (h : e.hit kind name sender entry k = some (.ok m)) : k.1 = entry.group ∧ k.2.id = entry.keyId ∧
      (∃ preimage, e.signaturePreimage = some preimage ∧
        verify P sender.card.signingKey preimage e.signature = true) ∧
      e.decryptEntry P kind name entry k = .ok m.payload ∧
      m = ⟨e.sender, sender.card.signingKey, k.1, k.2.id, m.payload⟩ := by
 unfold hit at h
 split at h
 · rename_i hk
   obtain ⟨payload,hp,ha⟩:=Option.map_eq_some_iff.mp h
   obtain ⟨hv,rfl⟩:=accept_ok ha
   exact ⟨hk.1,hk.2,hv,toOption_eq_some.mp hp,rfl⟩
 · cases h

/-- What a holder of the group keys may take from the envelope on the channel: it comes from a trusted signer, out of an
entry for a held key. -/
def Opens (e : GroupEnvelope) (kind : ChannelKind) (name : Bytes) (trusted : List (TrustedPeer P))
    (groupKeys : List (GroupId × GroupKey)) (m : GroupEnvelopeMessage P) : Prop :=
  e.kind = kind ∧ e.name = name ∧ m.sender = e.sender ∧
    ∃ peer, SignedBy trusted e.sender e.signaturePreimage e.signature peer ∧ m.signedBy = peer.card.signingKey ∧
      ∃ entry ∈ e.entries, ∃ key, (entry.group, key) ∈ groupKeys ∧ key.id = entry.keyId ∧
        m.group = entry.group ∧ m.keyId = entry.keyId ∧
        P.decrypt (groupMessageKey P entry.group key kind name entry.nonce) entry.nonce
          (groupEnvelopeAad e.sender entry.group entry.keyId kind name entry.nonce) entry.ciphertext = some m.payload

lemma opens_of_openWith
    (h : e.openWith kind name trusted groupKeys = .ok m) : e.Opens kind name trusted groupKeys m := by
 obtain ⟨hki,hn,sender,hs,hva,hf⟩:=openWith_ok h
 obtain ⟨entry,he,hke⟩:=exists_of_findSome?_eq_some hf
 obtain ⟨⟨group,key⟩,hkey,hh⟩:=exists_of_findSome?_eq_some hke
 obtain ⟨hg,hk,hv,hd,hm⟩:=hit_ok hh
 have hid : sender.peerId = e.sender := by simpa using find?_some hs
 simp only at hg hk
 subst hg
 have hp:=okOr_eq_ok.mp hd
 simp only [hk] at hp
 refine ⟨hki,hn,?_,sender,⟨mem_of_find?_eq_some hs,hid,hva,hv⟩,?_,entry,he,key,hkey,hk,?_,?_,hp⟩
 · rw [hm]
 · rw [hm]
 · rw [hm]
 · rw [hm,hk]

end GroupEnvelope

structure GroupEnvelopeEntryWire where
  groupId : Bytes32
  keyId : Bytes32
  nonce : Nonce
  ciphertext : Bytes
  deriving DecidableEq

structure GroupEnvelopeWire where
  version : UInt8
  senderPeerId : Bytes32
  channelKind : UInt8
  channelName : Bytes
  entries : List GroupEnvelopeEntryWire
  signature : Bytes
  deriving DecidableEq

variable {P}

namespace GroupEnvelope

def toWire (e : GroupEnvelope) : GroupEnvelopeWire where
  version := recordVersion
  senderPeerId := e.sender
  channelKind := channelKindCode e.kind
  channelName := e.name
  entries := e.entries.map fun r => ⟨r.group, r.keyId, r.nonce, r.ciphertext⟩
  signature := e.signature.toList

def tryFromWire (w : GroupEnvelopeWire) : Res GroupEnvelopeError GroupEnvelope := do
  ensure (w.version == recordVersion) .unsupportedVersion
  let kind ← groupChannelKindFromCode w.channelKind
  mapErr .name (validateName w.channelName)
  ensure (!w.entries.isEmpty) .noGroupKeys
  let signature ← okOr .signatureInvalid (toBlock 64 w.signature)
  let entries := w.entries.map fun r => ⟨r.groupId, r.keyId, r.nonce, r.ciphertext⟩
  return ⟨w.senderPeerId, kind, w.channelName, entries, signature⟩

variable (rmp : Codec GroupEnvelopeWire)

def toBytes (e : GroupEnvelope) : Res GroupEnvelopeError Bytes :=
  okOr .msgpackFailed (rmp.encode e.toWire)

def fromBytes (bytes : Bytes) : Res GroupEnvelopeError GroupEnvelope := do
  let wire ← okOr .msgpackFailed (rmp.decode bytes)
  tryFromWire wire

def openBytes (bytes : Bytes) (kind : ChannelKind) (name : Bytes) (trusted : List (TrustedPeer P))
    (groupKeys : List (GroupId × GroupKey)) : Res GroupEnvelopeError (GroupEnvelopeMessage P) := do
  let envelope ← fromBytes rmp bytes
  envelope.openWith kind name trusted groupKeys

section Format
open Msgpack

def entryFormat : Format GroupEnvelopeEntryWire :=
  (record 4 ((field "group_id" (block 32)).pair ((field "key_id" (block 32)).pair
    ((field "nonce" (block 24)).pair (field "ciphertext" bytes))))).imap
    (fun r => (r.groupId, r.keyId, r.nonce, r.ciphertext))
    (fun p => some ⟨p.1, p.2.1, p.2.2.1, p.2.2.2⟩) (fun _ => rfl)

def wireFormat : Format GroupEnvelopeWire :=
  (record 6 ((field "version" u8).pair ((field "sender_peer_id" (block 32)).pair
    ((field "channel_kind" u8).pair ((field "channel_name" str).pair
    ((field "entries" (array entryFormat)).pair (field "signature" bytes))))))).imap
    (fun w => (w.version, w.senderPeerId, w.channelKind, w.channelName, w.entries, w.signature))
    (fun p => some ⟨p.1, p.2.1, p.2.2.1, p.2.2.2.1, p.2.2.2.2.1, p.2.2.2.2.2⟩) (fun _ => rfl)

end Format

end GroupEnvelope

/-- Whatever the bytes, a message that an envelope opens to was signed by a trusted peer with a valid card, all entries
included, on the channel asked for, and decrypts from an entry for the one who opens it. -/
theorem openBytes_sound (rmp : Codec PeerEnvelopeWire) (rmpGroup : Codec GroupEnvelopeWire) :
    (∀ (bytes : Bytes) (recipient : PeerIdentity) (kind : ChannelKind) (name : Bytes)
        (trusted : List (TrustedPeer P)) (m : PeerEnvelopeMessage P),
      PeerEnvelope.openBytes rmp bytes recipient kind name trusted = .ok m →
      ∃ e, PeerEnvelope.fromBytes rmp bytes = .ok e ∧ e.Opens recipient kind name trusted m) ∧
    ∀ (bytes : Bytes) (kind : ChannelKind) (name : Bytes) (trusted : List (TrustedPeer P))
        (groupKeys : List (GroupId × GroupKey)) (m : GroupEnvelopeMessage P),
      GroupEnvelope.openBytes rmpGroup bytes kind name trusted groupKeys = .ok m →
      ∃ e, GroupEnvelope.fromBytes rmpGroup bytes = .ok e ∧ e.Opens kind name trusted groupKeys m := by
 constructor
 · intro bytes recipient kind name trusted m h
   obtain ⟨e,he,hopen⟩:=bind_eq_ok.mp h
   exact ⟨e,he,PeerEnvelope.openFor_ok hopen⟩
 · intro bytes kind name trusted groupKeys m h
   obtain ⟨e,he,hopen⟩:=bind_eq_ok.mp h
   exact ⟨e,he,GroupEnvelope.opens_of_openWith hopen⟩

section Plain
open PeerEnvelope

def plainGroupKey : GroupKey := ⟨pad 32 [7], pad 32 [9]⟩

set_option maxRecDepth 8000 in
theorem openBytes_sound_plain : (∃ e bytes m,
      sealTo (plainIdentity 1 1) .slot (ascii "s") (ascii "hi") [(plainCard 2 2, plainNonce)] = .ok e ∧
      e.toBytes wireFormat.codec = .ok bytes ∧
      PeerEnvelope.openBytes wireFormat.codec bytes (plainIdentity 2 2) .slot (ascii "s")
        [⟨plainCard 1 1⟩] = .ok m ∧
      ∃ e, PeerEnvelope.fromBytes wireFormat.codec bytes = .ok e ∧
        e.Opens (plainIdentity 2 2) .slot (ascii "s") [⟨plainCard 1 1⟩] m) ∧
    ∃ e bytes m, GroupEnvelope.sealTo plainPrimitives (plainIdentity 1 1) .slot (ascii "s") (ascii "hi")
        [((zero32, plainGroupKey), plainNonce)] = .ok e ∧
      e.toBytes GroupEnvelope.wireFormat.codec = .ok bytes ∧
      GroupEnvelope.openBytes GroupEnvelope.wireFormat.codec bytes .slot (ascii "s") [⟨plainCard 1 1⟩]
        [(zero32, plainGroupKey)] = .ok m ∧
      ∃ e, GroupEnvelope.fromBytes GroupEnvelope.wireFormat.codec bytes = .ok e ∧
        e.Opens .slot (ascii "s") [⟨plainCard 1 1⟩] [(zero32, plainGroupKey)] m :=
 ⟨⟨_,_,_,rfl,rfl,rfl,(openBytes_sound wireFormat.codec GroupEnvelope.wireFormat.codec).1 _ _ _ _ _ _ rfl⟩,
  _,_,_,rfl,rfl,rfl,
  (openBytes_sound wireFormat.codec GroupEnvelope.wireFormat.codec).2 _ _ _ _ _ _ rfl⟩

end Plain

/-! The parts of a `PeerNamespace` that opening a payload reads: the trusted peers, held under their
own ids, and the group keys, held under their group and their own key id. -/

inductive PeerAddress where
  | pairwise (peer : PeerId)
  | publisher (peer : PeerId)
  | group (group : GroupId)
  deriving DecidableEq

def PeerAddress.domain : PeerAddress → Bytes
  | .pairwise _ => ascii "enlace/v1/pkey/addr/pairwise"
  | .publisher _ => ascii "enlace/v1/pkey/addr/publisher"
  | .group _ => ascii "enlace/v1/pkey/addr/group"

def PeerAddress.id : PeerAddress → Bytes32
  | .pairwise peer => peer
  | .publisher peer => peer
  | .group id => id

def peerAddressId (P : Primitives) (address : PeerAddress) (kind : ChannelKind) (name : Bytes) : Bytes32 :=
  hkdfSha256 P address.id.toList [] (address.domain ++ kind.asBytes ++ name) 32

def peerTransportId (P : Primitives) (transport : TransportKind) (address : PeerAddress)
    (kind : ChannelKind) (name : Bytes) : Bytes :=
  let full := (peerAddressId P address kind name).toList
  match transport with
  | .http => full.take channelIdLen
  | _ => full

structure NamespaceView (P : Primitives) where
  trustedPeers : Keyed PeerId (TrustedPeer P) fun id peer => peer.peerId = id
  groupKeys : Keyed (GroupId × GroupKeyId) GroupKey fun k key => key.id = k.2

namespace NamespaceView

variable {P : Primitives} (view : NamespaceView P)

def trustedSnapshot : List (TrustedPeer P) := view.trustedPeers.entries.map Prod.snd

def groupIds : List GroupId :=
  ((view.groupKeys.entries.map fun k => k.1.1).insertionSort fun a b => a.toList ≤ b.toList).destutter
    (· ≠ ·)

def groupKeysForEnvelope (e : GroupEnvelope) : List (GroupId × GroupKey) :=
  e.entries.filterMap fun entry =>
    (view.groupKeys.get (entry.group, entry.keyId)).map fun key => (entry.group, key)

def openGroupEnvelope (e : GroupEnvelope) (kind : ChannelKind) (name : Bytes) :
    Res GroupEnvelopeError (GroupEnvelopeMessage P) :=
  e.openWith kind name view.trustedSnapshot (view.groupKeysForEnvelope e)

variable {view} {e : GroupEnvelope}

lemma get_of_mem_groupKeysForEnvelope {k : GroupId × GroupKey}
    (h : k ∈ view.groupKeysForEnvelope e) : view.groupKeys.get (k.1, k.2.id) = some k.2 := by
 obtain ⟨entry,_,he⟩:=mem_filterMap.mp h
 obtain ⟨key,hk,rfl⟩:=Option.map_eq_some_iff.mp he
 have hid : key.id = entry.keyId := Keyed.ok_of_get (m := view.groupKeys) hk
 rw [hid]
 exact hk

end NamespaceView
end Enlace.Peer
