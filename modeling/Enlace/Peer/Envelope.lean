import Enlace.Crypto
import Enlace.Lib.Msgpack

set_option autoImplicit false

/-! Identities, group keys and public peer cards (`peer.rs`). -/
namespace Enlace.Peer
open ByteString Fallible Crypto WireFormat Kdf List

abbrev PeerId := Bytes32
abbrev GroupId := Bytes32
abbrev GroupKeyId := Bytes32

structure GroupKey where
  id : GroupKeyId
  secret : Bytes32
  deriving DecidableEq

/-- A text in the normal form of its parser: what is printed parses to itself. -/
def Normal (parse : Bytes → Option Bytes) : Type := { text : Bytes // parse text = some text }

instance (parse : Bytes → Option Bytes) : DecidableEq (Normal parse) :=
  inferInstanceAs (DecidableEq (Subtype _))

def Normal.parse (parse : Bytes → Option Bytes) (raw : Bytes) : Option (Normal parse) :=
  (parse raw).bind fun text => if h : parse text = some text then some ⟨text, h⟩ else none

lemma Normal.parse_val {parse : Bytes → Option Bytes} (t : Normal parse) : Normal.parse parse t.val = some t := by
 rw [Normal.parse,t.property,Option.bind_some,dif_pos t.property]
 rfl

abbrev Url (P : Primitives) := Normal P.parseUrl
abbrev SocketAddr (P : Primitives) := Normal P.parseSocketAddr

structure IrohEndpointAddr (P : Primitives) where
  endpointId : Bytes32
  relayUrls : List (Url P)
  directAddrs : List (SocketAddr P)
  deriving DecidableEq

inductive PeerCardError where
  | missingPrefix
  | invalidEncoding
  | unsupportedVersion
  | truncated (field : String)
  | trailingBytes
  | invalidSigningKey
  | inconsistentPeerId
  | emptyExchangeKey
  | invalidIrohEndpoint
  | invalidUtf8 (field : String)
  | invalidRelayUrl
  | invalidDirectAddr
  | countTooLarge (field : String)
  | fieldTooLarge (field : String)
  deriving DecidableEq

def PeerCardError.display : PeerCardError → String
  | .missingPrefix => "peer card export prefix missing"
  | .invalidEncoding => "peer card export encoding invalid"
  | .unsupportedVersion => "peer card version unsupported"
  | .truncated field => "peer card ended inside " ++ field
  | .trailingBytes => "peer card has trailing bytes"
  | .invalidSigningKey => "peer card signing key invalid"
  | .inconsistentPeerId => "peer card id does not match signing key"
  | .emptyExchangeKey => "peer card exchange key is empty"
  | .invalidIrohEndpoint => "peer card iroh endpoint invalid"
  | .invalidUtf8 field => "peer card " ++ field ++ " is not utf-8"
  | .invalidRelayUrl => "peer card relay url invalid"
  | .invalidDirectAddr => "peer card direct address invalid"
  | .countTooLarge field => "peer card " ++ field ++ " count too large"
  | .fieldTooLarge field => "peer card " ++ field ++ " too large"

variable {P : Primitives}

def PeerId.fromSigningKey (key : VerifyingKey P) : PeerId :=
  P.sha256 (ascii "enlace/v1/pkey/peer-id" ++ key.toBytes.toList)

structure PeerCard (P : Primitives) where
  peerId : PeerId
  signingKey : VerifyingKey P
  exchangeKey : Bytes32
  irohEndpoint : Option (IrohEndpointAddr P)
  deriving DecidableEq

def PeerCard.new (signingKey : VerifyingKey P) (exchangeKey : Bytes32)
    (irohEndpoint : Option (IrohEndpointAddr P)) : PeerCard P :=
  ⟨PeerId.fromSigningKey signingKey, signingKey, exchangeKey, irohEndpoint⟩

def PeerCard.isConsistent (card : PeerCard P) : Bool :=
  card.peerId == PeerId.fromSigningKey card.signingKey

def allZero (block : Bytes32) : Bool := block.toList.all (· == 0)

def PeerCard.validate (card : PeerCard P) : Res PeerCardError Unit := do
  ensure card.isConsistent .inconsistentPeerId
  ensure (!allZero card.exchangeKey) .emptyExchangeKey
  ensure (!card.irohEndpoint.any fun e => allZero e.endpointId) .invalidIrohEndpoint

lemma PeerCard.validate_eq_ok {card : PeerCard P} {u : Unit} : card.validate = .ok u ↔
    card.peerId = PeerId.fromSigningKey card.signingKey ∧ allZero card.exchangeKey = false ∧
      ∀ e ∈ card.irohEndpoint, allZero e.endpointId = false := by
 simp only [PeerCard.validate,bind_eq_ok,ensure_eq_ok,PeerCard.isConsistent,beq_iff_eq,
  Bool.not_eq_true',exists_const,Option.any_eq_false]
 simp

lemma PeerCard.validate_cases (card : PeerCard P) : card.validate = .ok () ∨ ∃ e, card.validate = fail e := by
 unfold PeerCard.validate
 cases card.isConsistent with
 | false => exact .inr ⟨_,rfl⟩
 | true =>
  cases allZero card.exchangeKey with
  | true => exact .inr ⟨_,rfl⟩
  | false =>
   cases card.irohEndpoint.any fun e=>allZero e.endpointId with
   | true => exact .inr ⟨_,rfl⟩
   | false => exact .inl rfl

structure TrustedPeer (P : Primitives) where
  card : PeerCard P
  deriving DecidableEq

def TrustedPeer.peerId (peer : TrustedPeer P) : PeerId := peer.card.peerId

def TrustedPeer.tryFromCard (card : PeerCard P) : Res PeerCardError (TrustedPeer P) := do
  card.validate
  return ⟨card⟩

structure PeerIdentity where
  signing : Bytes32
  exchange : Bytes32
  irohSecret : Option Bytes32
  deriving DecidableEq

def PeerIdentity.verifyingKey (P : Primitives) (identity : PeerIdentity) : VerifyingKey P :=
  P.verifyingKey identity.signing

def PeerIdentity.peerId (P : Primitives) (identity : PeerIdentity) : PeerId :=
  PeerId.fromSigningKey (identity.verifyingKey P)

def PeerIdentity.card (P : Primitives) (identity : PeerIdentity) : PeerCard P :=
  PeerCard.new (identity.verifyingKey P) (P.exchangePublic identity.exchange) none

def PeerIdentity.cardWithIrohEndpoint (identity : PeerIdentity) (endpoint : IrohEndpointAddr P) : PeerCard P :=
  PeerCard.new (identity.verifyingKey P) (P.exchangePublic identity.exchange) (some endpoint)

def PeerIdentity.Owns (identity : PeerIdentity) (card : PeerCard P) : Prop :=
  ∃ endpoint, card = PeerCard.new (identity.verifyingKey P) (P.exchangePublic identity.exchange) endpoint

lemma zero32_of_allZero {block : Bytes32} (h : allZero block = true) : block = zero32 := by
 have ha : ∀ b ∈ block.toList, b = 0 := by
  intro b hb
  exact beq_iff_eq.mp (List.all_eq_true.mp h b hb)
 apply Subtype.ext
 exact List.eq_replicate_iff.mpr ⟨block.toList_length,ha⟩

lemma PeerIdentity.Owns.validate_iff (hP : P.Lawful) {idn : PeerIdentity} {card : PeerCard P}
    (h : idn.Owns card) : card.validate = .ok () ↔ ∀ e ∈ card.irohEndpoint, allZero e.endpointId = false := by
 obtain ⟨ep,rfl⟩:=h
 have hk : allZero (P.exchangePublic idn.exchange) = false := by
  cases hz : allZero (P.exchangePublic idn.exchange) with
  | false => rfl
  | true => exact absurd (zero32_of_allZero hz) (hP.exchangePublic_ne_zero _)
 rw [PeerCard.validate_eq_ok]
 exact ⟨fun hv=>hv.2.2,fun he=>⟨rfl,hk,he⟩⟩

/-! `PeerEnvelope`: one ciphertext per recipient under a signature of the sender. A recipient is
given together with the nonce that is drawn for it. -/

inductive PeerEnvelopeError where
  | name (e : NameError)
  | noRecipients
  | invalidRecipient (e : PeerCardError)
  | msgpackFailed
  | unsupportedVersion
  | notAddressed
  | aeadFailed
  | signatureInvalid
  | untrustedSender
  | wrongChannel
  deriving DecidableEq

def recordVersion : UInt8 := 1

def channelKindCode : ChannelKind → UInt8
  | .mailbox => 0
  | .slot => 1

def kindFromCode {ε : Type} (malformed : ε) (code : UInt8) : Res ε ChannelKind :=
  if code = 0 then .ok .mailbox else if code = 1 then .ok .slot else fail malformed

def channelKindFromCode : UInt8 → Res PeerEnvelopeError ChannelKind := kindFromCode .msgpackFailed

lemma kindFromCode_channelKindCode {ε : Type} (malformed : ε) (kind : ChannelKind) :
    kindFromCode malformed (channelKindCode kind) = .ok kind := by cases kind <;> rfl

def writeLen (n : ℕ) : Option Bytes := if n < 2^32 then some (beBytes 4 n) else none

def writeLenPrefixed (bs : Bytes) : Option Bytes := (writeLen bs.length).map (· ++ bs)

structure PeerRecipientEnvelope where
  recipient : PeerId
  nonce : Nonce
  ciphertext : Bytes
  deriving DecidableEq

structure PeerEnvelope where
  sender : PeerId
  kind : ChannelKind
  name : Bytes
  recipients : List PeerRecipientEnvelope
  signature : Signature
  deriving DecidableEq

structure PeerEnvelopeMessage (P : Primitives) where
  sender : PeerId
  signedBy : VerifyingKey P
  payload : Bytes
  deriving DecidableEq

def PeerRecipientEnvelope.preimage (r : PeerRecipientEnvelope) : Option Bytes :=
  (writeLenPrefixed r.ciphertext).map (r.recipient.toList ++ r.nonce.toList ++ ·)

def PeerEnvelope.signaturePreimage (e : PeerEnvelope) : Option Bytes := do
  let name ← writeLenPrefixed e.name
  let count ← writeLen e.recipients.length
  let entries ← e.recipients.mapM PeerRecipientEnvelope.preimage
  return ascii "enlace/v1/pkey/sig/" ++ [recordVersion] ++ e.sender.toList ++ [channelKindCode e.kind] ++
    name ++ count ++ entries.flatten

variable (P : Primitives)

def pairwiseMessageKey (secret pub : Bytes32) (kind : ChannelKind) (name : Bytes) (nonce : Nonce) : AeadKey :=
  hkdfSha256 P (P.diffieHellman secret pub).toList []
    (ascii "enlace/v1/pkey/message" ++ kind.asBytes ++ name ++ nonce.toList) 32

def peerEnvelopeAad (sender recipient : PeerId) (kind : ChannelKind) (name : Bytes) (nonce : Nonce) : Bytes :=
  ascii "enlace/v1/pkey/aead/" ++ sender.toList ++ recipient.toList ++ kind.asBytes ++ name ++ nonce.toList

variable {P}

def PeerEnvelope.sealEntry (sender : PeerIdentity) (kind : ChannelKind) (name payload : Bytes)
    (r : PeerCard P × Nonce) : Res PeerEnvelopeError PeerRecipientEnvelope := do
  mapErr .invalidRecipient r.1.validate
  let key := pairwiseMessageKey P sender.exchange r.1.exchangeKey kind name r.2
  let aad := peerEnvelopeAad (sender.peerId P) r.1.peerId kind name r.2
  let ciphertext ← okOr .aeadFailed (P.encrypt key r.2 aad payload)
  return ⟨r.1.peerId, r.2, ciphertext⟩

def PeerEnvelope.sealTo (sender : PeerIdentity) (kind : ChannelKind) (name payload : Bytes)
    (recipients : List (PeerCard P × Nonce)) : Res PeerEnvelopeError PeerEnvelope := do
  mapErr .name (validateName name)
  ensure (!recipients.isEmpty) .noRecipients
  let encrypted ← recipients.mapM (PeerEnvelope.sealEntry sender kind name payload)
  let envelope : PeerEnvelope := ⟨sender.peerId P, kind, name, encrypted, List.Vector.replicate 64 0⟩
  let preimage ← expect envelope.signaturePreimage
  return { envelope with signature := sign P sender.signing preimage }

def PeerEnvelope.openFor (e : PeerEnvelope) (recipient : PeerIdentity) (kind : ChannelKind)
    (name : Bytes) (trusted : List (TrustedPeer P)) :
    Res PeerEnvelopeError (PeerEnvelopeMessage P) := do
  mapErr .name (validateName name)
  ensure (e.kind == kind && e.name == name) .wrongChannel
  let entry ← okOr .notAddressed (e.recipients.find? fun r => r.recipient == recipient.peerId P)
  let sender ← okOr .untrustedSender (trusted.find? fun p => p.peerId == e.sender)
  mapErr (fun _ => .untrustedSender) sender.card.validate
  let key := pairwiseMessageKey P recipient.exchange sender.card.exchangeKey kind name entry.nonce
  let aad := peerEnvelopeAad e.sender entry.recipient kind name entry.nonce
  let payload ← okOr .aeadFailed (P.decrypt key entry.nonce aad entry.ciphertext)
  let preimage ← expect e.signaturePreimage
  ensure (verify P sender.card.signingKey preimage e.signature) .signatureInvalid
  return ⟨e.sender, sender.card.signingKey, payload⟩

structure PeerRecipientEnvelopeWire where
  recipientPeerId : Bytes32
  nonce : Nonce
  ciphertext : Bytes
  deriving DecidableEq

structure PeerEnvelopeWire where
  version : UInt8
  senderPeerId : Bytes32
  channelKind : UInt8
  channelName : Bytes
  recipients : List PeerRecipientEnvelopeWire
  signature : Bytes
  deriving DecidableEq

def PeerEnvelope.toWire (e : PeerEnvelope) : PeerEnvelopeWire where
  version := recordVersion
  senderPeerId := e.sender
  channelKind := channelKindCode e.kind
  channelName := e.name
  recipients := e.recipients.map fun r => ⟨r.recipient, r.nonce, r.ciphertext⟩
  signature := e.signature.toList

def PeerEnvelope.tryFromWire (w : PeerEnvelopeWire) : Res PeerEnvelopeError PeerEnvelope := do
  ensure (w.version == recordVersion) .unsupportedVersion
  let kind ← channelKindFromCode w.channelKind
  mapErr .name (validateName w.channelName)
  ensure (!w.recipients.isEmpty) .noRecipients
  let signature ← okOr .signatureInvalid (toBlock 64 w.signature)
  let recipients := w.recipients.map fun r => ⟨r.recipientPeerId, r.nonce, r.ciphertext⟩
  return ⟨w.senderPeerId, kind, w.channelName, recipients, signature⟩

variable (rmp : Codec PeerEnvelopeWire)

def PeerEnvelope.toBytes (e : PeerEnvelope) : Res PeerEnvelopeError Bytes :=
  okOr .msgpackFailed (rmp.encode e.toWire)

def PeerEnvelope.fromBytes (bytes : Bytes) : Res PeerEnvelopeError PeerEnvelope := do
  let wire ← okOr .msgpackFailed (rmp.decode bytes)
  tryFromWire wire

def PeerEnvelope.openBytes (bytes : Bytes) (recipient : PeerIdentity) (kind : ChannelKind)
    (name : Bytes) (trusted : List (TrustedPeer P)) :
    Res PeerEnvelopeError (PeerEnvelopeMessage P) := do
  let envelope ← fromBytes rmp bytes
  envelope.openFor recipient kind name trusted

/-- The trusted peer whose valid card verifies the signature over the whole preimage. -/
structure SignedBy (trusted : List (TrustedPeer P)) (sender : PeerId) (preimage : Option Bytes)
    (signature : Signature) (peer : TrustedPeer P) : Prop where
  trusted : peer ∈ trusted
  sender : peer.peerId = sender
  valid : peer.card.validate = .ok ()
  verified : ∃ bytes, preimage = some bytes ∧ verify P peer.card.signingKey bytes signature = true

/-- What `recipient` may take from the envelope on the channel: it comes from a trusted signer, out of an entry for
`recipient`. -/
def PeerEnvelope.Opens (e : PeerEnvelope) (recipient : PeerIdentity) (kind : ChannelKind) (name : Bytes)
    (trusted : List (TrustedPeer P)) (m : PeerEnvelopeMessage P) : Prop :=
  e.kind = kind ∧ e.name = name ∧ m.sender = e.sender ∧
    ∃ peer, SignedBy trusted e.sender e.signaturePreimage e.signature peer ∧ m.signedBy = peer.card.signingKey ∧
      ∃ entry ∈ e.recipients, entry.recipient = recipient.peerId P ∧
        P.decrypt (pairwiseMessageKey P recipient.exchange peer.card.exchangeKey kind name entry.nonce)
          entry.nonce (peerEnvelopeAad e.sender (recipient.peerId P) kind name entry.nonce)
          entry.ciphertext = some m.payload

namespace PeerEnvelope

variable {e : PeerEnvelope}

lemma tryFromWire_toWire (hn : validateName e.name = .ok ())
    (hne : e.recipients ≠ []) : tryFromWire e.toWire = .ok e := by
 have hw : e.toWire.recipients.isEmpty = false := by
  cases hr : e.recipients with
  | nil => exact absurd hr hne
  | cons r rs => simp only [toWire,hr,map_cons,isEmpty_cons]
 have hb : e.toWire.recipients.map (fun r=>⟨r.recipientPeerId,r.nonce,r.ciphertext⟩) = e.recipients := by
  rw [toWire,map_map]
  exact map_id _
 simp only [tryFromWire,hw,hb]
 simp only [toWire,channelKindFromCode,kindFromCode_channelKindCode,hn,mapErr_ok,ok_bind,toBlock_toList,okOr_some]
 rfl

lemma fromBytes_toBytes {rmp : Codec PeerEnvelopeWire} {bytes : Bytes}
    (hn : validateName e.name = .ok ()) (hne : e.recipients ≠ [])
    (h : e.toBytes rmp = .ok bytes) : fromBytes rmp bytes = .ok e := by
 rw [fromBytes,rmp.decode_encode (okOr_eq_ok.mp h),okOr_some,ok_bind,tryFromWire_toWire hn hne]

variable {kind : ChannelKind}

lemma sealTo_ok {sender : PeerIdentity} {name payload : Bytes} {recipients : List (PeerCard P × Nonce)}
    (h : sealTo sender kind name payload recipients = .ok e) : validateName name = .ok () ∧ recipients ≠ [] ∧
    recipients.mapM (sealEntry sender kind name payload) = .ok e.recipients ∧
    e.sender = sender.peerId P ∧ e.kind = kind ∧ e.name = name ∧
    ∃ preimage, e.signaturePreimage = some preimage ∧ e.signature = sign P sender.signing preimage := by
 simp only [sealTo,bind_eq_ok,mapErr_eq_ok,ensure_eq_ok,expect_eq_ok,pure_eq_ok] at h
 obtain ⟨_,hn,_,hne,encrypted,he,preimage,hp,rfl⟩:=h
 refine ⟨hn,?_,he,rfl,rfl,rfl,preimage,hp,rfl⟩
 rintro rfl
 cases hne

lemma pairwiseMessageKey_comm (hP : P.Lawful) (a b : Bytes32) (kind : ChannelKind) (name : Bytes)
    (nonce : Nonce) : pairwiseMessageKey P a (P.exchangePublic b) kind name nonce =
      pairwiseMessageKey P b (P.exchangePublic a) kind name nonce := by
 rw [pairwiseMessageKey,pairwiseMessageKey,hP.diffieHellman_comm]

lemma sealEntry_ok {sender : PeerIdentity} {name payload : Bytes}
    {r : PeerCard P × Nonce} {entry : PeerRecipientEnvelope} (h : sealEntry sender kind name payload r = .ok entry) :
    entry.recipient = r.1.peerId ∧ entry.nonce = r.2 ∧
    P.encrypt (pairwiseMessageKey P sender.exchange r.1.exchangeKey kind name r.2) r.2
      (peerEnvelopeAad (sender.peerId P) r.1.peerId kind name r.2) payload = some entry.ciphertext := by
 simp only [sealEntry,bind_eq_ok,mapErr_eq_ok,okOr_eq_ok,pure_eq_ok] at h
 obtain ⟨_,_,ciphertext,hc,rfl⟩:=h
 exact ⟨rfl,rfl,hc⟩

lemma openFor_ok {recipient : PeerIdentity} {name : Bytes}
    {trusted : List (TrustedPeer P)} {m : PeerEnvelopeMessage P}
    (h : e.openFor recipient kind name trusted = .ok m) : e.Opens recipient kind name trusted m := by
 simp only [openFor,bind_eq_ok,mapErr_eq_ok,ensure_eq_ok,okOr_eq_ok,expect_eq_ok,pure_eq_ok,
  Bool.and_eq_true,beq_iff_eq] at h
 obtain ⟨_,_,_,⟨hk,hn⟩,entry,he,peer,hpeer,_,hva,payload,hd,preimage, hp,_,hv,rfl⟩:=h
 have hid : peer.peerId = e.sender := by simpa using find?_some hpeer
 have hr : entry.recipient = recipient.peerId P := by simpa using find?_some he
 rw [hr] at hd
 exact ⟨hk,hn,rfl,peer,⟨mem_of_find?_eq_some hpeer,hid,hva,preimage,hp,hv⟩,rfl,entry,mem_of_find?_eq_some he,hr,hd⟩

section Delivery

variable {sender recipient : PeerIdentity} {senderCard card : PeerCard P}
  {trusted : List (TrustedPeer P)} {kind : ChannelKind} {name payload : Bytes}
  {recipients : List (PeerCard P × Nonce)} {e : PeerEnvelope} {entry : PeerRecipientEnvelope}

/-- What the owner of `card` reads: the first entry under its id, with the key the sender shares with `card`. -/
theorem openFor_sealTo (hP : P.Lawful) (hse : sealTo sender kind name payload recipients = .ok e)
    (hc : recipient.Owns card) (hs : sender.Owns senderCard)
    (ht : trusted.find? (fun p => p.peerId == sender.peerId P) = some ⟨senderCard⟩)
    (hen : e.recipients.find? (fun r => r.recipient == card.peerId) = some entry) :
    e.openFor recipient kind name trusted = (do
      mapErr (fun _ => .untrustedSender) senderCard.validate
      let payload ← okOr .aeadFailed (P.decrypt
        (pairwiseMessageKey P sender.exchange card.exchangeKey kind name entry.nonce) entry.nonce
        (peerEnvelopeAad (sender.peerId P) entry.recipient kind name entry.nonce) entry.ciphertext)
      return ⟨sender.peerId P, sender.verifyingKey P, payload⟩) := by
 obtain ⟨hn,_,_,hid,hk,he,preimage,hp,hsi⟩:=sealTo_ok hse
 obtain ⟨_,rfl⟩:=hc
 obtain ⟨_,rfl⟩:=hs
 have hv : verify P (sender.verifyingKey P) preimage (sign P sender.signing preimage) = true := hP.verify_sign _ _
 have hf : e.recipients.find? (fun r=>r.recipient == recipient.peerId P) = some entry := hen
 simp only [openFor,hn,mapErr_ok,ok_bind,hk,he,beq_self_eq_true,Bool.and_self,
  ensure_true,hf,okOr_some,hid,ht,hp,hsi,expect,PeerCard.new,hv,
  pairwiseMessageKey_comm hP recipient.exchange sender.exchange]

lemma find?_recipients (hs : sealTo sender kind name payload recipients = .ok e) {id : PeerId}
    {first : PeerCard P × Nonce} (hf : recipients.find? (fun r => r.1.peerId == id) = some first) :
    ∃ entry, sealEntry sender kind name payload first = .ok entry ∧
      e.recipients.find? (fun r => r.recipient == id) = some entry := by
 refine find?_of_mapM_ok ?_ (sealTo_ok hs).2.2.1 hf
 intro r entry hr
 rw [(sealEntry_ok hr).1]

end Delivery

/-- The owner of a card reads the payload exactly when the sender's card is valid and the first card of the list with
its peer id leads to the same message key. -/
theorem delivered_iff (hP : P.Lawful) (rmp : Codec PeerEnvelopeWire) (sender : PeerIdentity)
    (kind : ChannelKind) (name payload : Bytes) (recipients : List (PeerCard P × Nonce))
    (e : PeerEnvelope) (hseal : sealTo sender kind name payload recipients = .ok e) (bytes : Bytes)
    (hbytes : e.toBytes rmp = .ok bytes) (card : PeerCard P) (nonce : Nonce)
    (hmem : (card, nonce) ∈ recipients) (recipient : PeerIdentity) (hcard : recipient.Owns card)
    (senderCard : PeerCard P) (hsender : sender.Owns senderCard) (trusted : List (TrustedPeer P))
    (htrusted : trusted.find? (fun p => p.peerId == sender.peerId P) = some ⟨senderCard⟩)
    (hauthentic : ∀ first ∈ recipients, ∀ c,
      let key := fun card : PeerCard P =>
        pairwiseMessageKey P sender.exchange card.exchangeKey kind name first.2
      let aad := peerEnvelopeAad (sender.peerId P) first.1.peerId kind name first.2
      P.encrypt (key first.1) first.2 aad payload = some c →
        P.decrypt (key card) first.2 aad c = some payload → key first.1 = key card) :
    openBytes rmp bytes recipient kind name trusted = .ok ⟨sender.peerId P, sender.verifyingKey P, payload⟩ ↔
      (∀ endpoint ∈ senderCard.irohEndpoint, allZero endpoint.endpointId = false) ∧
      ∀ first, recipients.find? (fun r => r.1.peerId == card.peerId) = some first →
        pairwiseMessageKey P sender.exchange first.1.exchangeKey kind name first.2 =
          pairwiseMessageKey P sender.exchange card.exchangeKey kind name first.2 := by
 obtain ⟨hna,hne,he,_,_,hen,_⟩:=sealTo_ok hseal
 have hfr : fromBytes rmp bytes = .ok e := fromBytes_toBytes (hen ▸ hna) (ne_nil_of_mapM_ok he hne) hbytes
 obtain ⟨first,hf⟩ : ∃ first, recipients.find? (fun r=>r.1.peerId == card.peerId) = some first :=
  Option.isSome_iff_exists.mp (find?_isSome.mpr ⟨_,hmem,beq_self_eq_true _⟩)
 obtain ⟨entry,hey,hfi⟩:=find?_recipients hseal hf
 obtain ⟨hr,hn,hc⟩:=sealEntry_ok hey
 have hd : P.decrypt (pairwiseMessageKey P sender.exchange card.exchangeKey kind name first.2)
   first.2 (peerEnvelopeAad (sender.peerId P) first.1.peerId kind name first.2) entry.ciphertext = some payload ↔
   pairwiseMessageKey P sender.exchange first.1.exchangeKey kind name first.2 =
    pairwiseMessageKey P sender.exchange card.exchangeKey kind name first.2 := by
  refine ⟨hauthentic first (mem_of_find?_eq_some hf) _ hc,?_⟩
  intro hk
  rw [← hk]
  exact hP.decrypt_encrypt hc
 rw [openBytes,hfr,ok_bind,openFor_sealTo hP hseal hcard hsender htrusted hfi,hr,hn,← hsender.validate_iff hP]
 simp only [bind_eq_ok,mapErr_eq_ok,okOr_eq_ok,pure_eq_ok,hf,Option.some.injEq,forall_eq']
 constructor
 · rintro ⟨_,hv,p,hp,hm⟩
   rw [(PeerEnvelopeMessage.mk.inj hm).2.2] at hp
   exact ⟨hv,hd.mp hp⟩
 · rintro ⟨hv,hk⟩
   exact ⟨(),hv,payload,hd.mpr hk,rfl⟩

section Format
open Msgpack

def recipientFormat : Format PeerRecipientEnvelopeWire :=
  (record 3 ((field "recipient_peer_id" (block 32)).pair ((field "nonce" (block 24)).pair
    (field "ciphertext" bytes)))).imap
    (fun r => (r.recipientPeerId, r.nonce, r.ciphertext)) (fun p => some ⟨p.1, p.2.1, p.2.2⟩)
    (fun _ => rfl)

def wireFormat : Format PeerEnvelopeWire :=
  (record 6 ((field "version" u8).pair ((field "sender_peer_id" (block 32)).pair
    ((field "channel_kind" u8).pair ((field "channel_name" str).pair
    ((field "recipients" (array recipientFormat)).pair (field "signature" bytes))))))).imap
    (fun w => (w.version, w.senderPeerId, w.channelKind, w.channelName, w.recipients, w.signature))
    (fun p => some ⟨p.1, p.2.1, p.2.2.1, p.2.2.2.1, p.2.2.2.2.1, p.2.2.2.2.2⟩) (fun _ => rfl)

end Format

def plainIdentity (signing exchange : UInt8) : PeerIdentity :=
  ⟨pad 32 [signing], pad 32 [exchange], none⟩

def plainCard (signing exchange : UInt8) : PeerCard plainPrimitives :=
  (plainIdentity signing exchange).card plainPrimitives

def plainNonce : Nonce := pad 24 []

/-- Two cards of one signing key. -/
def twoDevices : List (PeerCard plainPrimitives × Nonce) := [(plainCard 2 2, plainNonce), (plainCard 2 4, plainNonce)]

set_option maxRecDepth 8000 in
theorem first_device_delivered : ∃ e bytes,
    sealTo (plainIdentity 1 1) .mailbox (ascii "m") (ascii "hi") twoDevices = .ok e ∧
    e.toBytes wireFormat.codec = .ok bytes ∧
    openBytes wireFormat.codec bytes (plainIdentity 2 2) .mailbox (ascii "m") [⟨plainCard 1 1⟩] =
      .ok ⟨(plainIdentity 1 1).peerId plainPrimitives, (plainIdentity 1 1).verifyingKey plainPrimitives,
        ascii "hi"⟩ := by
 refine ⟨_,_,rfl,rfl,(delivered_iff plainPrimitives_lawful wireFormat.codec (plainIdentity 1 1) .mailbox (ascii "m")
  (ascii "hi") twoDevices _ rfl _ rfl (plainCard 2 2) plainNonce mem_cons_self (plainIdentity 2 2) ⟨none,rfl⟩
  (plainCard 1 1) ⟨none,rfl⟩ [⟨plainCard 1 1⟩] rfl ?_).mpr ⟨nofun,?_⟩⟩
 · refine forall_mem_cons.mpr ⟨fun _ _ _=>rfl,forall_mem_singleton.mpr fun c hc hd=>?_⟩
   cases hc
   exact absurd hd (by decide +kernel)
 · rintro first ⟨⟩
   rfl

set_option maxRecDepth 8000 in
/-- The owner of the second card cannot open what was sealed to it. -/
theorem second_device_undelivered : ∃ e bytes,
    sealTo (plainIdentity 1 1) .mailbox (ascii "m") (ascii "hi") twoDevices = .ok e ∧
    e.toBytes wireFormat.codec = .ok bytes ∧
    openBytes wireFormat.codec bytes (plainIdentity 2 4) .mailbox (ascii "m") [⟨plainCard 1 1⟩] = fail .aeadFailed :=
 ⟨_,_,rfl,rfl,rfl⟩

end PeerEnvelope
end Enlace.Peer
