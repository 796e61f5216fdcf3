import Enlace.Peer.Put

set_option autoImplicit false

/-! Whose value a slot of the public-key mode delivers: `open_slot_value` compares neither the sender with the publisher
that was asked for nor the group of the opened message with the group of the address. -/
namespace Enlace.Peer
open ByteString Fallible WireFormat Crypto Kdf SlotRead Transition State Table Option NamespaceView Coordinator

variable {P : Primitives} {view : NamespaceView P}

namespace NamespaceView

def TrustsOnly (view : NamespaceView P) (publisher : PeerId) : Prop :=
  ∀ peer ∈ view.trustedSnapshot, peer.card.validate = .ok () → peer.peerId = publisher

def HoldsOnly (view : NamespaceView P) (group : GroupId) : Prop :=
  ∀ k key, view.groupKeys.get k = some key → k.1 = group

variable {peer : TrustedPeer P}

lemma get_of_mem_trustedSnapshot (h : peer ∈ view.trustedSnapshot) :
    view.trustedPeers.get peer.peerId = some peer := by
 obtain ⟨entry,he,rfl⟩:=List.mem_map.mp h
 have hk : entry.2.peerId = entry.1 := Keyed.ok_of_mem (m := view.trustedPeers) he
 rw [hk]
 exact Keyed.get_eq_some.mpr he

lemma find?_trustedSnapshot (h : peer ∈ view.trustedSnapshot) :
    view.trustedSnapshot.find? (fun p => p.peerId == peer.peerId) = some peer := by
 obtain ⟨other,ho⟩ : ∃ other, view.trustedSnapshot.find? (fun p=>p.peerId == peer.peerId) = some other :=
  isSome_iff_exists.mp (List.find?_isSome.mpr ⟨peer,h,beq_self_eq_true _⟩)
 -- a peer is held under its own id, so the one that is found is the one of the table
 have hid : other.peerId = peer.peerId := by simpa using List.find?_some ho
 have hg:=get_of_mem_trustedSnapshot (List.mem_of_find?_eq_some ho)
 rw [hid,get_of_mem_trustedSnapshot h] at hg
 rw [ho,hg]

end NamespaceView

namespace GroupEnvelope

lemma fromBytes_toBytes {rmp : Codec GroupEnvelopeWire} {e : GroupEnvelope} {bytes : Bytes}
    (hn : validateName e.name = .ok ()) (hne : e.entries ≠ []) (h : e.toBytes rmp = .ok bytes) :
    fromBytes rmp bytes = .ok e := by
 rw [fromBytes,rmp.decode_encode (okOr_eq_ok.mp h),okOr_some,ok_bind]
 simp [tryFromWire,toWire,groupChannelKindFromCode,kindFromCode_channelKindCode,hn,toBlock_toList,hne,
  Function.comp_def]

/-- What is sealed under one group key opens with it for everyone who trusts the sender. -/
lemma openWith_sealTo (hP : P.Lawful) {writer : PeerIdentity} {card : PeerCard P} (hca : writer.Owns card)
    {trusted : List (TrustedPeer P)}
    (ht : trusted.find? (fun p => p.peerId == writer.peerId P) = some ⟨card⟩) (hva : card.validate = .ok ())
    {kind : ChannelKind} {name payload : Bytes} {group : GroupId} {key : GroupKey} {nonce : Nonce} {e : GroupEnvelope}
    (hs : sealTo P writer kind name payload [((group, key), nonce)] = .ok e) :
    validateName e.name = .ok () ∧ (∃ c, e.entries = [⟨group, key.id, nonce, c⟩]) ∧
      e.openWith kind name trusted [(group, key)] =
        .ok ⟨writer.peerId P, writer.verifyingKey P, group, key.id, payload⟩ := by
 simp only [sealTo,sealEntry,groupEncrypt,List.mapM_cons,List.mapM_nil,bind_eq_ok,mapErr_eq_ok,ensure_eq_ok,
  expect_eq_ok,okOr_eq_ok,pure_eq_ok] at hs
 obtain ⟨_,hn,_,_,_,⟨_,⟨c,hc,rfl⟩,_,rfl,rfl⟩,preimage,hp,rfl⟩:=hs
 obtain ⟨ep,rfl⟩:=hca
 have hv : verify P (writer.verifyingKey P) preimage (sign P writer.signing preimage) = true := hP.verify_sign _ _
 refine ⟨hn,⟨c,rfl⟩,?_⟩
 simp only [openWith,hn,mapErr_ok,ok_bind,beq_self_eq_true,Bool.and_self,ensure_true,ht,okOr_some,hva]
 have hsi : signaturePreimage ⟨writer.peerId P,kind,name,[⟨group,key.id,nonce,c⟩],sign P writer.signing preimage⟩ =
  some preimage := hp
 simp [tryEntry,tryKey,decryptEntry,groupDecrypt,hP.decrypt_encrypt hc,accept,hsi,expect,PeerCard.new,hv]

end GroupEnvelope

namespace PeerSlot

def Answer (rmp : SlotCodecs) (slot : PeerSlot) (address : PeerAddress) (scope : PeerSlotScope)
    (responses : List (Response (NamespaceView P))) (x : Item (NamespaceView P) (PeerSlotValue P)) : Prop :=
  (∃ r ∈ responses, opened (slot.opener rmp address scope) r = some x) ∧
    Newest (slot.opener rmp address scope) responses x

variable {rmp : SlotCodecs} {slot : PeerSlot} {address : PeerAddress} {scope : PeerSlotScope}
  {x : Item (NamespaceView P) (PeerSlotValue P)} {via : TransportKind}

lemma getAddress_some {rs : List (Response (NamespaceView P))} {v : PeerSlotValue P}
    (h : slot.getAddress rmp address scope rs = .ok (some v)) :
    ∃ x, slot.Answer rmp address scope rs x ∧ x.value = v := by
 simp only [getAddress,bind_eq_ok,pure_eq_ok] at h
 obtain ⟨best,hbest,hv⟩:=h
 obtain ⟨x,rfl,rfl⟩:=map_eq_some_iff.mp hv
 exact ⟨x,read_some _ hbest,rfl⟩

lemma getAddress_of_open {bytes : Bytes} {v : PeerSlotValue P}
    (h : view.openSlotValue rmp slot.identity slot.name via address scope bytes = .ok v) (server : UInt64) :
    slot.getAddress rmp address scope [⟨view, via, .ok (some (server, bytes))⟩] = .ok (some v) := by
 simp [getAddress,SlotRead.read,handle,opener,h]

lemma Answer.eq_of_one {bytes : Bytes} {server : UInt64}
    (h : slot.Answer rmp address scope [⟨view, via, .ok (some (server, bytes))⟩] x) :
    x.env = view ∧ x.bytes = bytes := by
 obtain ⟨⟨r,hr,hx⟩,_⟩:=h
 obtain ⟨_,hre,he,_⟩:=opened_eq_some _ hx
 rw [List.mem_singleton.mp hr] at hre he
 cases hre
 exact ⟨he,rfl⟩

def Opens (rmp : SlotCodecs) (slot : PeerSlot) (address : PeerAddress) (scope : PeerSlotScope)
    (x : Item (NamespaceView P) (PeerSlotValue P)) : Prop :=
  ∃ via, x.env.openSlotValue rmp slot.identity slot.name via address scope x.bytes = .ok x.value

lemma opens_of_opener (h : slot.opener rmp address scope x.env via x.bytes = .ok (x.version, x.value)) :
    slot.Opens rmp address scope x := by
 simp only [opener,bind_eq_ok,pure_eq_ok] at h
 obtain ⟨value,hv,heq⟩:=h
 exact ⟨via,(Prod.mk.inj heq).2 ▸ hv⟩

lemma Answer.opens {rs : List (Response (NamespaceView P))} (h : slot.Answer rmp address scope rs x) :
    slot.Opens rmp address scope x := by
 obtain ⟨⟨r,_,hr⟩,_⟩:=h
 obtain ⟨_,_,he,hopen⟩:=opened_eq_some _ hr
 exact opens_of_opener (he ▸ hopen)

lemma delivered_opens {store : InMemoryInner P} {as : List (Watch.Act (Fin slot.transports.length) (NamespaceView P))}
    {s : Watch.Sys P (Fin slot.transports.length) (NamespaceView P) (PeerSlotValue P)}
    (h : Runs (Watch.step (slot.watchAddress rmp address scope))
      (Watch.init (slot.watchAddress rmp address scope) store view) as s) :
    ∀ x ∈ s.delivered, slot.Opens rmp address scope x := by
 intro x hx
 obtain ⟨i,hi⟩:=Watch.delivered_genuine _ h x hx
 exact opens_of_opener hi

/-- The payload is an envelope that the value's sender signed, as a peer the namespace trusted. -/
def SignedBySender (rmp : SlotCodecs) (x : Item (NamespaceView P) (PeerSlotValue P)) : Prop :=
  ∃ e peer, PeerEnvelope.fromBytes rmp.peer x.bytes = .ok e ∧ x.value.sender = e.sender ∧
    SignedBy x.env.trustedSnapshot e.sender e.signaturePreimage e.signature peer ∧
    x.value.signedBy = peer.card.signingKey

lemma Opens.signedBySender {publisher : PeerId} (h : slot.Opens rmp (.publisher publisher) scope x) :
    x.value.scope = scope ∧ SignedBySender rmp x := by
 obtain ⟨via,h⟩:=h
 simp only [openSlotValue,PeerEnvelope.openBytes,bind_eq_ok,mapErr_eq_ok,pure_eq_ok] at h
 obtain ⟨m,⟨e,hf,hopen⟩,inner,_,hv⟩:=h
 obtain ⟨_,_,hs,peer,hpeer,hsi,_⟩:=PeerEnvelope.openFor_ok hopen
 rw [SignedBySender,← hv]
 exact ⟨rfl,e,peer,hf,hs,hpeer,hsi⟩

lemma SignedBySender.sender_eq (h : SignedBySender rmp x) {publisher : PeerId} (ho : x.env.TrustsOnly publisher) :
    x.value.sender = publisher := by
 obtain ⟨e,peer,_,hs,hpeer,_⟩:=h
 rw [hs,← hpeer.sender,ho peer hpeer.trusted hpeer.valid]

/-- Some entry decrypts to the message's payload under a key that the namespace holds for the message's group. -/
def HeldFor (rmp : SlotCodecs) (view : NamespaceView P) (kind : ChannelKind) (name bytes : Bytes)
    (m : GroupEnvelopeMessage P) : Prop :=
  ∃ e entry key, GroupEnvelope.fromBytes rmp.group bytes = .ok e ∧ entry ∈ e.entries ∧
    view.groupKeys.get (m.group, m.keyId) = some key ∧
    e.decryptEntry P kind name entry (m.group, key) = .ok m.payload

lemma heldFor_of_open {kind : ChannelKind} {name bytes : Bytes} {m : GroupEnvelopeMessage P}
    (h : view.openGroupBytes rmp kind name bytes = .ok m) : HeldFor rmp view kind name bytes m := by
 obtain ⟨e,hf,hopen⟩:=bind_eq_ok.mp h
 obtain ⟨_,_,_,_,_,_,entry,he,key,hke,hid,hg,hk,hd⟩:=GroupEnvelope.opens_of_openWith hopen
 refine ⟨e,entry,key,hf,he,?_,?_⟩
 · rw [hg,hk,← hid]
   exact get_of_mem_groupKeysForEnvelope hke
 · rw [hg,GroupEnvelope.decryptEntry,groupDecrypt,hid,hd,okOr_some]

lemma Opens.message {group : GroupId} (h : slot.Opens rmp (.group group) scope x) : x.value.scope = scope ∧ ∃ m,
      x.env.openGroupBytes rmp .slot slot.name x.bytes = .ok m ∧ x.value.sender = m.sender ∧
        x.value.keyId = some m.keyId ∧ HeldFor rmp x.env .slot slot.name x.bytes m ∧
        (x.env.HoldsOnly group → m.group = group) := by
 obtain ⟨via,h⟩:=h
 simp only [openSlotValue,bind_eq_ok,mapErr_eq_ok,pure_eq_ok] at h
 obtain ⟨m,hm,inner,_,hv⟩:=h
 have hh:=heldFor_of_open hm
 rw [← hv]
 refine ⟨rfl,m,hm,rfl,rfl,hh,?_⟩
 intro ho
 obtain ⟨_,_,key,_,_,hg,_⟩:=hh
 exact ho _ key hg

section Puts

variable {writer : PeerIdentity} {card : PeerCard P} {nonce : Nonce} {store : InMemoryInner P} {payload : Bytes}
  {out : Outgoing}

lemma find?_owned (hc : writer.Owns card) (ht : ⟨card⟩ ∈ view.trustedSnapshot) :
    view.trustedSnapshot.find? (fun p => p.peerId == writer.peerId P) = some ⟨card⟩ := by
 obtain ⟨_,rfl⟩:=hc
 exact find?_trustedSnapshot ht

/-- What a trusted peer puts for the reader opens at the address of any publisher. -/
lemma openSlotValue_putPublisherForPeers (hP : P.Lawful) (hc : writer.Owns card)
    (ht : ⟨card⟩ ∈ view.trustedSnapshot) (hv : card.validate = .ok ())
    {readerCard : PeerCard P} (hre : slot.identity.Owns readerCard)
    (hp : ({ slot with identity := writer }.putPublisherForPeers rmp store [(readerCard, nonce)] payload).2 = .ok out)
    (publisher : PeerId) (scope : PeerSlotScope) (via : TransportKind) :
    view.openSlotValue rmp slot.identity slot.name via (.publisher publisher) scope out.bytes =
      .ok ⟨out.version, writer.peerId P, writer.verifyingKey P, payload, via, scope, none⟩ := by
 simp only [putPublisherForPeers,withNextVersion,sealForPeers,encodePeerSlotPayload,bind_eq_ok,expect_eq_ok,
  mapErr_eq_ok,okOr_eq_ok,pure_eq_ok] at hp
 obtain ⟨version,_,bytes,⟨inner,hi,e,hs,hb⟩,rfl⟩:=hp
 obtain ⟨hna,hne,he,_,_,hen,_⟩:=PeerEnvelope.sealTo_ok hs
 have hfr : PeerEnvelope.fromBytes rmp.peer bytes = .ok e :=
  PeerEnvelope.fromBytes_toBytes (hen ▸ hna) (ne_nil_of_mapM_ok he hne) hb
 have hf : [(readerCard,nonce)].find? (fun r=>r.1.peerId == readerCard.peerId) = some (readerCard,nonce) := by simp
 obtain ⟨entry,hey,hfi⟩:=PeerEnvelope.find?_recipients hs hf
 obtain ⟨hr,hn,hci⟩:=PeerEnvelope.sealEntry_ok hey
 have hopen:=PeerEnvelope.openFor_sealTo hP hs hre hc (find?_owned hc ht) hfi
 rw [hr,hn,hP.decrypt_encrypt hci,hv] at hopen
 simp [openSlotValue,PeerEnvelope.openBytes,hfr,hopen,putBytes,decodePeerSlotPayload,rmp.inner.decode_encode hi]

/-- What a trusted peer puts for a group opens at the address of any group, under the key of the group it was put for.
-/
lemma openSlotValue_putGroup (hP : P.Lawful) (hc : writer.Owns card)
    (ht : ⟨card⟩ ∈ view.trustedSnapshot) (hv : card.validate = .ok ())
    {writerView : NamespaceView P} {held : GroupId} {keyId : GroupKeyId}
    (hke : view.groupKeys.get (held, keyId) = writerView.groupKeys.get (held, keyId))
    (hp : ({ slot with identity := writer }.putGroup rmp store writerView held [(keyId, nonce)] payload).2 = .ok out)
    (group : GroupId) (scope : PeerSlotScope) (via : TransportKind) : ∃ m,
    view.openGroupBytes rmp .slot slot.name out.bytes = .ok m ∧ m.group = held ∧
    view.openSlotValue rmp slot.identity slot.name via (.group group) scope out.bytes =
      .ok ⟨out.version, writer.peerId P, writer.verifyingKey P, payload, via, scope, some keyId⟩ := by
 simp only [putGroup,withNextVersion,sealGroupEnvelope,resolveGroupKeys,encodePeerSlotPayload,bind_eq_ok,expect_eq_ok,
  mapErr_eq_ok,okOr_eq_ok,pure_eq_ok] at hp
 obtain ⟨version,_,inner,hi,e,⟨keys,⟨_,_,hk⟩,hs⟩,bytes,hb,rfl⟩:=hp
 simp only [List.map_cons,List.map_nil,List.mapM_cons,List.mapM_nil,bind_eq_ok,okOr_eq_ok,pure_eq_ok] at hk
 obtain ⟨_,⟨key,hg,rfl⟩,_,rfl,rfl⟩:=hk
 have hid : key.id = keyId := Keyed.ok_of_get (m := writerView.groupKeys) hg
 obtain ⟨hn,⟨c,he⟩,hopen⟩:= GroupEnvelope.openWith_sealTo hP hc (find?_owned hc ht) hv hs
 have hf:=GroupEnvelope.fromBytes_toBytes hn (he ▸ List.cons_ne_nil _ _) hb
 have hk : view.groupKeysForEnvelope e = [(held,key)] := by
  simp [groupKeysForEnvelope,he,hid,hke,hg]
 have hm : view.openGroupBytes rmp .slot slot.name bytes =
   .ok ⟨writer.peerId P,writer.verifyingKey P,held,keyId,inner⟩ := by
  rw [openGroupBytes,hf,ok_bind,openGroupEnvelope,hk,hopen,hid]
 refine ⟨_,hm,rfl,?_⟩
 simp [openSlotValue,putBytes,hm,decodePeerSlotPayload,rmp.inner.decode_encode hi]

end Puts

/-- The valid cards the namespace trusts are those of peers whose put for the slot's reader goes through. -/
def TrustsWriters (rmp : SlotCodecs) (slot : PeerSlot) (view : NamespaceView P) : Prop :=
  ∀ peer ∈ view.trustedSnapshot, peer.card.validate = .ok () → ∃ writer, writer.Owns peer.card ∧
    ∃ readerCard : PeerCard P, slot.identity.Owns readerCard ∧ ∃ nonce store payload out,
      ({ slot with identity := writer }.putPublisherForPeers rmp store [(readerCard, nonce)] payload).2 = .ok out

/-- Each group key the namespace holds is one under which a peer that it trusts has put a value. -/
def KeysUsed (rmp : SlotCodecs) (slot : PeerSlot) (view : NamespaceView P) : Prop :=
  ∀ held keyId key, view.groupKeys.get (held, keyId) = some key → ∃ writer card, writer.Owns card ∧
    ⟨card⟩ ∈ view.trustedSnapshot ∧ card.validate = .ok () ∧ ∃ writerView : NamespaceView P,
      writerView.groupKeys.get (held, keyId) = some key ∧ ∃ nonce store payload out,
      ({ slot with identity := writer }.putGroup rmp store writerView held [(keyId, nonce)] payload).2 = .ok out

/-- A publisher's slot delivers what a trusted peer signed. It delivers nothing but the publisher's own values to
exactly the namespaces that trust no one else: whatever another trusted peer puts for the reader is taken for the
publisher's. -/
theorem publisher_sender_iff (hP : P.Lawful) (rmp : SlotCodecs) (slot : PeerSlot) (publisher : PeerId) :
    (∀ responses (v : PeerSlotValue P), slot.getPublisher rmp publisher responses = .ok (some v) →
      ∃ x, slot.Answer rmp (.publisher publisher) (.publisher publisher) responses x ∧ x.value = v ∧
        v.scope = .publisher publisher ∧ SignedBySender rmp x ∧
        (x.env.TrustsOnly publisher → v.sender = publisher)) ∧
    (∀ (store : InMemoryInner P) (view : NamespaceView P) as s, Runs (Watch.step (slot.watchPublisher rmp publisher))
        (Watch.init (slot.watchPublisher rmp publisher) store view) as s →
      ∀ x ∈ s.delivered, x.value.scope = .publisher publisher ∧ SignedBySender rmp x ∧
        (x.env.TrustsOnly publisher → x.value.sender = publisher)) ∧
    ∀ view : NamespaceView P, slot.TrustsWriters rmp view →
      ((∀ via server bytes v, slot.getPublisher rmp publisher [⟨view, via, .ok (some (server, bytes))⟩] = .ok (some v) →
        v.sender = publisher) ↔ view.TrustsOnly publisher) := by
 refine ⟨?_,?_,?_⟩
 · intro responses v h
   obtain ⟨x,hx,rfl⟩:=getAddress_some h
   obtain ⟨hsc,hs⟩:=hx.opens.signedBySender
   exact ⟨x,hx,rfl,hsc,hs,hs.sender_eq⟩
 · intro store view as s h x hx
   obtain ⟨hsc,hs⟩:=(delivered_opens h x hx).signedBySender
   exact ⟨hsc,hs,hs.sender_eq⟩
 · intro view hw
   constructor
   · intro hg peer hpeer hv
     obtain ⟨writer,hc,readerCard,hr,nonce,store,payload,out,hp⟩:=hw peer hpeer hv
     have hopen:=openSlotValue_putPublisherForPeers hP hc hpeer hv hr hp publisher (.publisher publisher)
      .http
     have hse:=hg .http 0 out.bytes _ (getAddress_of_open hopen 0)
     obtain ⟨_,hc⟩:=hc
     exact (congrArg PeerCard.peerId hc).trans hse
   · intro ho via server bytes v h
     obtain ⟨x,hx,rfl⟩:=getAddress_some h
     exact hx.opens.signedBySender.2.sender_eq (hx.eq_of_one.1 ▸ ho)

/-- A group's slot delivers what was decrypted under a key that the namespace holds for the group of the message. It
delivers nothing but values of its own group to exactly the namespaces that hold no key of another: what is put for the
other group is taken for a value of this one. -/
theorem group_scope_iff (hP : P.Lawful) (rmp : SlotCodecs) (slot : PeerSlot) (group : GroupId) :
    (∀ responses (v : PeerSlotValue P), slot.getGroup rmp group responses = .ok (some v) →
      ∃ x, slot.Answer rmp (.group group) (.group group) responses x ∧ x.value = v ∧
        v.scope = .group group ∧ ∃ m, x.env.openGroupBytes rmp .slot slot.name x.bytes = .ok m ∧
        v.sender = m.sender ∧ v.keyId = some m.keyId ∧ HeldFor rmp x.env .slot slot.name x.bytes m ∧
        (x.env.HoldsOnly group → m.group = group)) ∧
    (∀ (store : InMemoryInner P) (view : NamespaceView P) as s,
      Runs (Watch.step (slot.watchGroup rmp group)) (Watch.init (slot.watchGroup rmp group) store view) as s →
      ∀ x ∈ s.delivered, x.value.scope = .group group ∧ ∃ m,
        x.env.openGroupBytes rmp .slot slot.name x.bytes = .ok m ∧ x.value.sender = m.sender ∧
        x.value.keyId = some m.keyId ∧ HeldFor rmp x.env .slot slot.name x.bytes m ∧
        (x.env.HoldsOnly group → m.group = group)) ∧
    ∀ view : NamespaceView P, slot.KeysUsed rmp view →
      ((∀ via server bytes v, slot.getGroup rmp group [⟨view, via, .ok (some (server, bytes))⟩] = .ok (some v) →
        ∃ m, view.openGroupBytes rmp .slot slot.name bytes = .ok m ∧ m.group = group) ↔ view.HoldsOnly group) := by
 refine ⟨?_,?_,?_⟩
 · intro responses v h
   obtain ⟨x,hx,rfl⟩:=getAddress_some h
   obtain ⟨hs,hme⟩:=hx.opens.message
   exact ⟨x,hx,rfl,hs,hme⟩
 · intro store view as s h x hx
   exact (delivered_opens h x hx).message
 · intro view hu
   constructor
   · intro hge k key hh
     obtain ⟨writer,card,hc,ht,hv,writerView,hk,nonce,store,payload,out,hp⟩:=hu _ _ key hh
     obtain ⟨m,hm,hg,hopen⟩:= openSlotValue_putGroup hP hc ht hv (hh.trans hk.symm) hp group (.group group) .http
     obtain ⟨_,hsa,rfl⟩:=hge .http 0 out.bytes _ (getAddress_of_open hopen 0)
     rw [Except.ok.inj (hsa.symm.trans hm),hg]
   · intro ho via server bytes v h
     obtain ⟨x,hx,_⟩:=getAddress_some h
     obtain ⟨he,hb⟩:=hx.eq_of_one
     obtain ⟨_,m,hm,_,_,_,hg⟩:=hx.opens.message
     rw [he,hb] at hm
     exact ⟨m,hm,hg (he ▸ ho)⟩

section Plain
open PeerEnvelope

def plainWriter : PeerSlot := { plainSlot with identity := plainIdentity 1 1 }

def plainPublished : Res PeerSlotError Outgoing :=
  (plainWriter.putPublisherForPeers plainCodecs .empty [(plainCard 2 2, plainNonce)] (ascii "v")).2

def plainPutGroup : Res PeerSlotError Outgoing :=
  (plainWriter.putGroup plainCodecs .empty plainView (plainGroup 5) [(plainGroupKey.id, plainNonce)] (ascii "v")).2

lemma trustsOnly_plainView : plainView.TrustsOnly (plainCard 1 1).peerId := by
 intro peer hpeer _
 rw [List.mem_singleton.mp hpeer]
 rfl

set_option maxRecDepth 8000 in
theorem publisher_sender_plain : ∃ out v, plainPublished = .ok out ∧
    plainSlot.getPublisher plainCodecs (plainCard 1 1).peerId (stored out.bytes) = .ok (some v) ∧
    v.sender = (plainCard 1 1).peerId := by
 obtain ⟨out,v,hp,hg⟩ : ∃ out v, plainPublished = .ok out ∧
   plainSlot.getPublisher plainCodecs (plainCard 1 1).peerId (stored out.bytes) = .ok (some v) := ⟨_,_,rfl,rfl⟩
 have hw : plainSlot.TrustsWriters plainCodecs plainView := by
  intro peer hpeer _
  rw [List.mem_singleton.mp hpeer]
  exact ⟨plainIdentity 1 1,⟨none,rfl⟩,plainCard 2 2,⟨none,rfl⟩,plainNonce,_,_,out,hp⟩
 have hi:=(publisher_sender_iff plainPrimitives_lawful plainCodecs plainSlot (plainCard 1 1).peerId).2.2 _ hw
 exact ⟨out,v,hp,hg,hi.mpr trustsOnly_plainView _ _ _ v hg⟩

set_option maxRecDepth 8000 in
/-- What a trusted peer published is delivered as the value of another publisher at whose address it is stored. -/
theorem publisher_impersonated : ∃ out v, plainPublished = .ok out ∧
    plainSlot.getPublisher plainCodecs (plainCard 3 3).peerId (stored out.bytes) = .ok (some v) ∧
    v.scope = .publisher (plainCard 3 3).peerId ∧ v.sender = (plainCard 1 1).peerId ∧
    v.sender ≠ (plainCard 3 3).peerId :=
 ⟨_,_,rfl,rfl,rfl,rfl,by decide⟩

lemma holdsOnly_plainView : plainView.HoldsOnly (plainGroup 5) := by
 intro k key hg
 rw [Prod.mk.inj (List.mem_singleton.mp (Keyed.get_eq_some.mp hg)) |>.1]

set_option maxRecDepth 8000 in
theorem group_scope_plain : ∃ out v m, plainPutGroup = .ok out ∧
    plainSlot.getGroup plainCodecs (plainGroup 5) (stored out.bytes) = .ok (some v) ∧
    plainView.openGroupBytes plainCodecs .slot plainSlot.name out.bytes = .ok m ∧ m.group = plainGroup 5 := by
 obtain ⟨out,v,hp,hge⟩ : ∃ out v, plainPutGroup = .ok out ∧
   plainSlot.getGroup plainCodecs (plainGroup 5) (stored out.bytes) = .ok (some v) := ⟨_,_,rfl,rfl⟩
 have hu : plainSlot.KeysUsed plainCodecs plainView := by
  intro held keyId key hh
  obtain ⟨hk,rfl⟩:=Prod.mk.inj (List.mem_singleton.mp (Keyed.get_eq_some.mp hh))
  obtain ⟨rfl,rfl⟩:=Prod.mk.inj hk
  exact ⟨plainIdentity 1 1,plainCard 1 1,⟨none,rfl⟩,List.mem_singleton.mpr rfl,rfl,plainView,hh,plainNonce,_,_,out,hp⟩
 have hi:=(group_scope_iff plainPrimitives_lawful plainCodecs plainSlot (plainGroup 5)).2.2 _ hu
 obtain ⟨m,hm,hg⟩:=hi.mpr holdsOnly_plainView _ _ _ v hge
 exact ⟨out,v,m,hp,hge,hm,hg⟩

set_option maxRecDepth 8000 in
/-- What is put for another group is delivered as a value of the group at whose address it is stored. -/
theorem group_scope_crossed : ∃ out v m, plainPutGroup = .ok out ∧
    plainSlot.getGroup plainCodecs (plainGroup 6) (stored out.bytes) = .ok (some v) ∧
    v.scope = .group (plainGroup 6) ∧
    plainView.openGroupBytes plainCodecs .slot plainSlot.name out.bytes = .ok m ∧
    m.group = plainGroup 5 ∧ m.group ≠ plainGroup 6 :=
 ⟨_,_,_,rfl,rfl,rfl,rfl,rfl,by decide⟩

end Plain
end PeerSlot
end Enlace.Peer
