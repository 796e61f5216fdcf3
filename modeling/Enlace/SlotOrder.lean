import Enlace.Peer.Preimage
import Enlace.Peer.Slot

set_option autoImplicit false

/-! Slot reads do not depend on the order in which the transports answer. -/
namespace Enlace
open ByteString Fallible WireFormat Crypto Kdf SlotRead List Option Format

variable {P : Primitives} {bytes name : Bytes} {via via' : TransportKind}

namespace Coordinator

variable (rmp : Codec SignedInner) (c : Coordinator P)

lemma noAbort_verifyInner (kind : ChannelKind) (name : Bytes) (inner : SignedInner) :
    NoAbort (verifyInner P kind name inner c.trusted) := by
 unfold verifyInner
 split
 · split <;> simp
 all_goals simp

lemma noAbort_openSealed (kind : ChannelKind) (name sealed : Bytes) :
    NoAbort (c.openSealed rmp kind name sealed) := by
 have hu : ∀ key, NoAbort (aeadUnseal P key (aeadAad kind name) sealed) := by
  intro key
  unfold aeadUnseal
  split <;> simp
 simp [openSealed,channelAeadKey,hu,noAbort_verifyInner]

lemma noAbort_openSlot (name : Bytes) (env : Unit) (via : TransportKind) (bytes : Bytes) :
    NoAbort (c.openSlot rmp name env via bytes) := by
 simp [openSlot,noAbort_openSealed]

def SlotValue.look (v : SlotValue P) : UInt64 × Bytes × Option (VerifyingKey P) :=
  (v.version, v.payload, v.signedBy)

lemma openSlot_look {p p' : UInt64 × SlotValue P}
    (h : c.openSlot rmp name () via bytes = .ok p) (h' : c.openSlot rmp name () via' bytes = .ok p') :
    p.2.look = p'.2.look := by
 simp only [openSlot,bind_eq_ok,pure_eq_ok] at h h'
 obtain ⟨opened,ho,version,hv,rfl⟩:=h
 obtain ⟨opened',ho',version',hv',rfl⟩:=h'
 obtain rfl:=Except.ok.inj (ho.symm.trans ho')
 obtain rfl:=Except.ok.inj (hv.symm.trans hv')
 rfl

def AsksAll (name : Bytes) : Prop :=
  ∀ kind ∈ c.transports, ∃ id, transportChannelId P c.seed kind .slot name = .ok id

lemma slotGet_eq (hn : c.AsksAll name) (rs : List (Response Unit)) : (c.slotGet rmp name rs).map Prod.fst =
      (read (c.openSlot rmp name) .allTransportsFailed rs).map (Option.map Item.value) := by
 have hi : ∃ ids, (c.transports.mapM fun kind=>mapErr (fun _=>SlotError.sealing .msgpackFailed)
   (transportChannelId P c.seed kind .slot name)) = .ok ids := by
  unfold AsksAll at hn
  generalize c.transports = kinds at hn ⊢
  induction kinds with
  | nil => exact ⟨[],rfl⟩
  | cons kind kinds ih =>
   obtain ⟨id,hid⟩:=hn kind mem_cons_self
   obtain ⟨ids,hi⟩:=ih fun kind hk=>hn kind (mem_cons_of_mem _ hk)
   exact ⟨id :: ids,by rw [mapM_cons,hid,hi]; rfl⟩
 obtain ⟨ids,hi⟩:=hi
 rw [slotGet,hi]
 cases read (c.openSlot rmp name) SlotError.allTransportsFailed rs with
 | error e => rfl
 | ok best => rfl

end Coordinator

namespace Peer

/-- No decoded list is longer than the 32 bits in which the format writes its length. -/
structure SlotCodecs.Msgpack (rmp : SlotCodecs) : Prop where
  peer : ∀ bytes w, rmp.peer.decode bytes = some w →
    w.recipients.length < 2^32 ∧ ∀ r ∈ w.recipients, r.ciphertext.length < 2^32
  group : ∀ bytes w, rmp.group.decode bytes = some w →
    w.entries.length < 2^32 ∧ ∀ r ∈ w.entries, r.ciphertext.length < 2^32

@[simp] lemma noAbort_kindFromCode {ε : Type} (malformed : ε) (code : UInt8) :
    NoAbort (kindFromCode malformed code) := by
 unfold kindFromCode
 split_ifs
 all_goals simp

@[simp] lemma PeerCard.noAbort_validate (card : PeerCard P) : NoAbort card.validate := by
 simp [PeerCard.validate]

lemma length_lt_of_validateName {u : Unit} (h : validateName name = .ok u) : name.length < 2^32 :=
 (validateName_eq_ok.mp h).2.1.trans_lt (by decide)

namespace PeerEnvelope

variable {e : PeerEnvelope}

lemma noAbort_openFor (h : e.signaturePreimage.isSome = true) (recipient : PeerIdentity)
    (kind : ChannelKind) (name : Bytes) (trusted : List (TrustedPeer P)) :
    NoAbort (e.openFor recipient kind name trusted) := by
 simp [openFor,h]

lemma noAbort_openBytes {rmp : SlotCodecs} (hr : rmp.Msgpack) (bytes : Bytes)
    (recipient : PeerIdentity) (kind : ChannelKind) (name : Bytes) (trusted : List (TrustedPeer P)) :
    NoAbort (openBytes rmp.peer bytes recipient kind name trusted) := by
 refine noAbort_bind.mpr ⟨by simp [fromBytes,tryFromWire,channelKindFromCode],fun e he=>?_⟩
 refine noAbort_openFor (signaturePreimage_isSome.mpr ?_) recipient kind name trusted
 simp only [fromBytes,tryFromWire,bind_eq_ok,okOr_eq_ok,mapErr_eq_ok,pure_eq_ok] at he
 obtain ⟨w,hw,_,_,_,_,_,hn,_,_,_,_,rfl⟩:=he
 exact ⟨length_lt_of_validateName hn,by simpa using hr.peer _ _ hw⟩

end PeerEnvelope

namespace GroupEnvelope

variable {e : GroupEnvelope}

lemma noAbort_hit (h : e.signaturePreimage.isSome = true) {kind : ChannelKind}
    {sender : TrustedPeer P} {entry : GroupEnvelopeEntry} {k : GroupId × GroupKey}
    {r : Res GroupEnvelopeError (GroupEnvelopeMessage P)} (hr : e.hit kind name sender entry k = some r) :
    NoAbort r := by
 unfold hit at hr
 split at hr
 · obtain ⟨payload,_,rfl⟩:=map_eq_some_iff.mp hr
   simp [accept,h]
 · cases hr

lemma noAbort_openWith (h : e.signaturePreimage.isSome = true) (kind : ChannelKind) (name : Bytes)
    (trusted : List (TrustedPeer P)) (groupKeys : List (GroupId × GroupKey)) :
    NoAbort (e.openWith kind name trusted groupKeys) := by
 simp only [openWith,noAbort_bind,noAbort_mapErr,noAbort_validateName,noAbort_ensure,noAbort_okOr,
  PeerCard.noAbort_validate,true_and]
 intro _ _ _ _ sender _ _ _
 generalize hx : e.entries.foldlM (e.tryEntry kind name sender groupKeys) ⟨false,false⟩ = x
 generalize ho : (e.entries.findSome? fun entry=>groupKeys.findSome? (e.hit kind name sender entry)) = o
 cases hx ▸ ho ▸ e.exits_entries kind name groupKeys sender with
 | early r =>
  obtain ⟨entry,_,hk⟩:=exists_of_findSome?_eq_some ho
  obtain ⟨k,_,hh⟩:=exists_of_findSome?_eq_some hk
  exact noAbort_hit h hh
 | runs tried =>
  simp only
  split <;> simp

lemma noAbort_openGroupBytes {rmp : SlotCodecs} (hr : rmp.Msgpack) (view : NamespaceView P)
    (kind : ChannelKind) (name bytes : Bytes) : NoAbort (view.openGroupBytes rmp kind name bytes) := by
 refine noAbort_bind.mpr ⟨by simp [fromBytes,tryFromWire,groupChannelKindFromCode],fun e he=>?_⟩
 refine noAbort_openWith (signaturePreimage_isSome.mpr ?_) kind name _ _
 simp only [fromBytes,tryFromWire,bind_eq_ok,okOr_eq_ok,mapErr_eq_ok,pure_eq_ok] at he
 obtain ⟨w,hw,_,_,_,_,_,hn,_,_,_,_,rfl⟩:=he
 exact ⟨length_lt_of_validateName hn,by simpa using hr.group _ _ hw⟩

end GroupEnvelope
namespace PeerSlot

variable {rmp : SlotCodecs} (slot : PeerSlot) (address : PeerAddress) (scope : PeerSlotScope)

lemma noAbort_opener (hr : rmp.Msgpack) (view : NamespaceView P) (via : TransportKind) (bytes : Bytes) :
    NoAbort (slot.opener rmp address scope view via bytes) := by
 have hpeer:=PeerEnvelope.noAbort_openBytes hr bytes slot.identity .slot slot.name
  view.trustedSnapshot
 have hg:=GroupEnvelope.noAbort_openGroupBytes hr view .slot slot.name bytes
 cases address
 all_goals simp [opener,NamespaceView.openSlotValue,decodePeerSlotPayload,hpeer,hg]

end PeerSlot

def PeerSlotValue.look (v : PeerSlotValue P) : UInt64 × Bytes × PeerId × VerifyingKey P :=
  (v.version, v.payload, v.sender, v.signedBy)

namespace PeerSlot

variable {rmp : SlotCodecs} {slot : PeerSlot} {address : PeerAddress} {scope : PeerSlotScope}

lemma opener_look {view : NamespaceView P}
    {p p' : UInt64 × PeerSlotValue P} (h : slot.opener rmp address scope view via bytes = .ok p)
    (h' : slot.opener rmp address scope view via' bytes = .ok p') : p.2.look = p'.2.look := by
 cases address with
 | group group | pairwise peer | publisher peer =>
  simp only [opener,NamespaceView.openSlotValue,bind_eq_ok,pure_eq_ok] at h h'
  obtain ⟨_,⟨m,hm,inner,hi,rfl⟩,rfl⟩:=h
  obtain ⟨_,⟨m',hm',inner',hi',rfl⟩,rfl⟩:=h'
  obtain rfl:=Except.ok.inj (hm.symm.trans hm')
  obtain rfl:=Except.ok.inj (hi.symm.trans hi')
  rfl

lemma getAddress_eq (rs : List (Response (NamespaceView P))) : slot.getAddress rmp address scope rs =
      (read (slot.opener rmp address scope) .allTransportsFailed rs).map (Option.map Item.value) := by
 unfold getAddress
 cases read (slot.opener rmp address scope) PeerSlotError.allTransportsFailed rs with
 | error e => rfl
 | ok best => rfl

end PeerSlot
end Peer

/-- In either mode a read fails exactly when some transport failed and none answered. Otherwise it returns the greatest
of the payloads that open, by version and then by sealed bytes, whatever the order of the answers. -/
theorem slot_reads_newest (rmp : Codec Coordinator.SignedInner) (codecs : Peer.SlotCodecs)
    (hcodecs : codecs.Msgpack) :
    (∀ (c : Coordinator P) (name : Bytes), c.AsksAll name → ∀ responses : List (Response Unit),
      NewestRead (c.openSlot rmp name) Coordinator.SlotValue.look .allTransportsFailed
        (fun order => (c.slotGet rmp name order).map Prod.fst) responses) ∧
    ∀ (slot : Peer.PeerSlot) (address : Peer.PeerAddress) (scope : Peer.PeerSlotScope)
      (view : Peer.NamespaceView P) (responses : List (Response (Peer.NamespaceView P))),
      (∀ r ∈ responses, r.env = view) →
      NewestRead (slot.opener codecs address scope) Peer.PeerSlotValue.look .allTransportsFailed
        (slot.getAddress codecs address scope) responses := by
 refine ⟨fun c name hn responses=>?_,fun slot address scope view responses hv=>?_⟩
 · exact newestRead_of_read (c.noAbort_openSlot rmp name) _
    (fun _ _ _ _ _ h h' => c.openSlot_look rmp h h') (c.slotGet_eq rmp hn) fun _ _=>rfl
 · exact newestRead_of_read (slot.noAbort_opener address scope hcodecs) _
    (fun _ _ _ _ _ h h' => Peer.PeerSlot.opener_look h h') Peer.PeerSlot.getAddress_eq hv

section Plain
open Peer Msgpack Coordinator

lemma yields_recipientFormat : PeerEnvelope.recipientFormat.Yields fun r => r.ciphertext.length < 2^32 :=
 (yields_record 3 ((yields_true _).pair ((yields_true _).pair
  (yields_field "ciphertext" yields_bytes)))).imap fun _ _ hb h=>some.inj hb ▸ h.2.2

lemma yields_entryFormat : GroupEnvelope.entryFormat.Yields fun r => r.ciphertext.length < 2^32 :=
 (yields_record 4 ((yields_true _).pair ((yields_true _).pair ((yields_true _).pair
  (yields_field "ciphertext" yields_bytes))))).imap fun _ _ hb h=>some.inj hb ▸ h.2.2.2

lemma plainCodecs_msgpack : PeerSlot.plainCodecs.Msgpack where
 peer bytes w h := by
  obtain ⟨⟨_,rest⟩,hp,rfl⟩:=map_eq_some_iff.mp h
  have hy : PeerEnvelope.wireFormat.Yields fun w=>
    w.recipients.length < 2^32 ∧ ∀ r ∈ w.recipients, r.ciphertext.length < 2^32 :=
   (yields_record 6 ((yields_true _).pair ((yields_true _).pair ((yields_true _).pair ((yields_true _).pair
    ((yields_field "recipients" (yields_array yields_recipientFormat)).pair
     (yields_true _))))))).imap fun _ _ hb h=>some.inj hb ▸ h.2.2.2.2.1
  exact hy _ _ _ hp
 group bytes w h := by
  obtain ⟨⟨_,rest⟩,hp,rfl⟩:=map_eq_some_iff.mp h
  have hy : GroupEnvelope.wireFormat.Yields fun w=>
    w.entries.length < 2^32 ∧ ∀ r ∈ w.entries, r.ciphertext.length < 2^32 :=
   (yields_record 6 ((yields_true _).pair ((yields_true _).pair ((yields_true _).pair ((yields_true _).pair
    ((yields_field "entries" (yields_array yields_entryFormat)).pair
     (yields_true _))))))).imap fun _ _ hb h=>some.inj hb ▸ h.2.2.2.2.1
  exact hy _ _ _ hp

def plainAnswers : List (Response Unit) :=
  [⟨(), .http, .ok (some (7, sealedAt 7))⟩, ⟨(), .dht, .error .timeout⟩,
    ⟨(), .pkarr, .ok (some (9, sealedAt 9))⟩, ⟨(), .iroh, .ok (some (9, sealedAt 9))⟩]

theorem slot_reads_newest_plain : PeerSlot.plainCodecs.Msgpack ∧ plainSlots.AsksAll (ascii "s") ∧
    NewestRead (plainSlots.openSlot signedInnerFormat.codec (ascii "s")) SlotValue.look
      .allTransportsFailed
      (fun order => (plainSlots.slotGet signedInnerFormat.codec (ascii "s") order).map Prod.fst)
      plainAnswers ∧
    NewestRead (PeerSlot.plainSlot.opener PeerSlot.plainCodecs (.group (PeerSlot.plainGroup 5))
      (.group (PeerSlot.plainGroup 5))) PeerSlotValue.look .allTransportsFailed
      (PeerSlot.plainSlot.getAddress PeerSlot.plainCodecs (.group (PeerSlot.plainGroup 5))
        (.group (PeerSlot.plainGroup 5))) (PeerSlot.stored (ascii "v")) := by
 have h:=slot_reads_newest (P := plainPrimitives) signedInnerFormat.codec PeerSlot.plainCodecs
  plainCodecs_msgpack
 have ha : plainSlots.AsksAll (ascii "s") := by
  intro kind hk
  rw [mem_singleton.mp hk]
  exact ⟨_,rfl⟩
 refine ⟨plainCodecs_msgpack,ha,h.1 plainSlots (ascii "s") ha plainAnswers,?_⟩
 refine h.2 _ _ _ PeerSlot.plainView _ fun r hr=>?_
 rw [mem_singleton.mp hr]

end Plain

end Enlace
