import Enlace.Peer.Preimage
import Enlace.Peer.Slot

set_option autoImplicit false

/-! The inputs of the key and id derivations, and the names of the slot counters: no two uses share
them. -/
namespace Enlace.Domains
open ByteString Fallible Crypto Kdf Peer Delimited List Option

def pkarrKeypair (P : Primitives) (seed : Bytes32) : Bytes32 :=
  deriveKey32 P seed.toList (ascii "enlace/v1/key/pkarr-id")

inductive Derivation where
  | channelAeadKey (kind : ChannelKind) (name : Bytes)
  | channelId (transport : TransportKind) (kind : ChannelKind) (name : Bytes)
  | irohTopicId (kind : ChannelKind) (name : Bytes)
  | pkarrKeypair

namespace Derivation

def derive (P : Primitives) (seed : Bytes32) : Derivation → Res NameError Bytes
  | channelAeadKey kind name => List.Vector.toList <$> Kdf.channelAeadKey P seed kind name
  | channelId transport kind name => List.Vector.toList <$> Kdf.channelId P seed transport kind name
  | irohTopicId kind name => List.Vector.toList <$> Kdf.irohTopicId P seed kind name
  | pkarrKeypair => .ok (Domains.pkarrKeypair P seed).toList

def validate : Derivation → Res NameError Unit
  | channelAeadKey _ name => validateName name
  | channelId _ _ name => validateName name
  | irohTopicId _ name => validateName name
  | pkarrKeypair => .ok ()

def info : Derivation → Bytes
  | channelAeadKey kind name => ascii "enlace/v1/key/aead/" ++ kind.asBytes ++ [slash] ++ name
  | channelId transport kind name =>
    ascii "enlace/v1/id/" ++ transport.asBytes ++ [slash] ++ kind.asBytes ++ [slash] ++ name
  | irohTopicId kind name => ascii "enlace/v1/id/iroh-topic/" ++ kind.asBytes ++ [slash] ++ name
  | pkarrKeypair => ascii "enlace/v1/key/pkarr-id"

def outLen : Derivation → ℕ
  | channelId _ _ _ => channelIdLen
  | _ => 32

lemma derive_eq (P : Primitives) (seed : Bytes32) (d : Derivation) : d.derive P seed = (do
    d.validate
    return (hkdfSha256 P seed.toList [] d.info d.outLen).toList) := by
 cases d with
 | channelAeadKey kind name =>
  simp only [derive,Kdf.channelAeadKey,validate]
  cases validateName name with
  | error e => rfl
  | ok _ => rfl
 | channelId tr kind name =>
  simp only [derive,Kdf.channelId,validate]
  cases validateName name with
  | error e => rfl
  | ok _ => rfl
 | irohTopicId kind name =>
  simp only [derive,Kdf.irohTopicId,validate]
  cases validateName name with
  | error e => rfl
  | ok _ => rfl
 | pkarrKeypair => rfl

end Derivation

inductive Domain where
  | aead
  | id (transport : TransportKind)
  | irohTopic
  | pkarr
  deriving DecidableEq

def Domain.word : Domain → Bytes
  | aead => ascii "enlace/v1/key/aead/"
  | id transport => ascii "enlace/v1/id/" ++ transport.asBytes ++ [slash]
  | irohTopic => ascii "enlace/v1/id/iroh-topic/"
  | pkarr => ascii "enlace/v1/key/pkarr-id"

lemma delimiting_word : Delimiting fun d : Domain => some d.word := by
 apply delimiting_of_code
 intro d d'
 rcases d with _|(_|_|_|_)|_|_ <;> rcases d' with _|(_|_|_|_)|_|_ <;> decide

namespace Derivation

def domain : Derivation → Domain
  | channelAeadKey _ _ => .aead
  | channelId transport _ _ => .id transport
  | irohTopicId _ _ => .irohTopic
  | pkarrKeypair => .pkarr

def channel : Derivation → Option (ChannelKind × Bytes)
  | channelAeadKey kind name => some (kind, name)
  | channelId _ kind name => some (kind, name)
  | irohTopicId kind name => some (kind, name)
  | pkarrKeypair => none

lemma info_eq (d : Derivation) :
    d.info = d.domain.word ++ d.channel.elim [] fun c => c.1.asBytes ++ slash :: c.2 := by
 cases d with
 | channelAeadKey kind name | channelId tr kind name | irohTopicId kind name | pkarrKeypair =>
  simp [info,domain,channel,Domain.word]

lemma eq_of_domain {d d' : Derivation} (h : d.domain = d'.domain) (hc : d.channel = d'.channel) : d = d' := by
 cases d <;> cases d' <;> simp_all [domain,channel]

lemma info_injective : Function.Injective info := by
 intro d d' h
 rw [info_eq,info_eq] at h
 obtain ⟨hdo,h⟩:=delimiting_word rfl rfl h
 refine eq_of_domain hdo ?_
 have hni : ∀ c : ChannelKind × Bytes, c.1.asBytes ++ slash :: c.2 ≠ [] := by
  intro c hc
  cases (append_eq_nil_iff.mp hc).2
 cases hd : d.channel with
 | none =>
  cases hd' : d'.channel with
  | none => rfl
  | some c' =>
   rw [hd,hd'] at h
   exact absurd h.symm (hni c')
 | some c =>
  cases hd' : d'.channel with
  | none =>
   rw [hd,hd'] at h
   exact absurd h (hni c)
  | some c' =>
   rw [hd,hd'] at h
   obtain ⟨hk,hn⟩:=delimiting_kind rfl rfl h
   rw [Prod.ext hk (cons.inj hn).2]

end Derivation

def addressInput (p : PeerAddress × ChannelKind × Bytes) : Bytes × Bytes :=
  (p.1.id.toList, p.1.domain ++ p.2.1.asBytes ++ p.2.2)

inductive Audience where
  | pairwise
  | publisher
  | group
  deriving DecidableEq

def Audience.domain : Audience → Bytes
  | pairwise => ascii "enlace/v1/pkey/addr/pairwise"
  | publisher => ascii "enlace/v1/pkey/addr/publisher"
  | group => ascii "enlace/v1/pkey/addr/group"

def audience : PeerAddress → Audience
  | .pairwise _ => .pairwise
  | .publisher _ => .publisher
  | .group _ => .group

lemma delimiting_domain : Delimiting fun a : Audience => some a.domain := by
 apply delimiting_of_code
 intro a b
 cases a <;> cases b <;> decide

lemma domain_eq (a : PeerAddress) : a.domain = (audience a).domain := by
 cases a <;> rfl

lemma eq_of_audience {a b : PeerAddress} (h : audience a = audience b) (hid : a.id = b.id) : a = b := by
 cases a <;> cases b <;> simp_all [audience,PeerAddress.id]

lemma addressInput_injective : Function.Injective addressInput := by
 rintro ⟨a,kind,name⟩ ⟨b,kind',name'⟩ h
 obtain ⟨hid,hi⟩:=Prod.mk.inj h
 simp only [append_assoc,domain_eq] at hi
 obtain ⟨ha,hi⟩:=delimiting_domain rfl rfl hi
 obtain ⟨hk,hn⟩:=delimiting_kind rfl rfl hi
 rw [eq_of_audience ha (Subtype.ext hid),hk,hn]

inductive MessageContext where
  | pairwise (sender recipient : PeerId) (kind : ChannelKind) (name : Bytes) (nonce : Nonce)
  | group (sender : PeerId) (id : GroupId) (keyId : GroupKeyId) (kind : ChannelKind) (name : Bytes)
      (nonce : Nonce)

namespace MessageContext

def info : MessageContext → Bytes
  | pairwise _ _ kind name nonce =>
    ascii "enlace/v1/pkey/message" ++ kind.asBytes ++ name ++ nonce.toList
  | group _ id keyId kind name nonce =>
    ascii "enlace/v1/pkey/group" ++ id.toList ++ keyId.toList ++ kind.asBytes ++ name ++ nonce.toList

def aad : MessageContext → Bytes
  | pairwise sender recipient kind name nonce => peerEnvelopeAad sender recipient kind name nonce
  | group sender id keyId kind name nonce => groupEnvelopeAad sender id keyId kind name nonce

lemma channel_nonce_inj {kind kind' : ChannelKind} {name name' : Bytes} {nonce nonce' : Nonce}
    (h : kind.asBytes ++ (name ++ nonce.toList) = kind'.asBytes ++ (name' ++ nonce'.toList)) :
    kind = kind' ∧ name = name' ∧ nonce = nonce' := by
 obtain ⟨hk,hrest⟩:=delimiting_kind rfl rfl h
 have hl : nonce.toList.length = nonce'.toList.length := nonce.toList_length.trans nonce'.toList_length.symm
 obtain ⟨hna,hn⟩:=append_inj' hrest hl
 exact ⟨hk,hna,Subtype.ext hn⟩

lemma aad_injective : Function.Injective aad := by
 intro c d h
 cases c with
 | pairwise sender recipient kind name nonce =>
  cases d with
  | pairwise sender' recipient' kind' name' nonce' =>
   simp only [aad,peerEnvelopeAad,append_assoc,append_cancel_left_eq] at h
   obtain ⟨hs,h⟩:=delimiting_blockBytes 32 rfl rfl h
   obtain ⟨hr,h⟩:=delimiting_blockBytes 32 rfl rfl h
   obtain ⟨hk,hna,hn⟩:=channel_nonce_inj h
   rw [hs,hr,hk,hna,hn]
  | group sender' id' keyId' kind' name' nonce' =>
   simp only [aad,peerEnvelopeAad,groupEnvelopeAad,append_assoc] at h
   exact absurd h (ne_of_append (by decide) (by decide) _ _)
 | group sender id keyId kind name nonce =>
  cases d with
  | pairwise sender' recipient' kind' name' nonce' =>
   simp only [aad,peerEnvelopeAad,groupEnvelopeAad,append_assoc] at h
   exact absurd h (ne_of_append (by decide) (by decide) _ _)
  | group sender' id' keyId' kind' name' nonce' =>
   simp only [aad,groupEnvelopeAad,append_assoc,append_cancel_left_eq] at h
   obtain ⟨hs,h⟩:=delimiting_blockBytes 32 rfl rfl h
   obtain ⟨hid,h⟩:=delimiting_blockBytes 32 rfl rfl h
   obtain ⟨hke,h⟩:=delimiting_blockBytes 32 rfl rfl h
   obtain ⟨hk,hna,hn⟩:=channel_nonce_inj h
   rw [hs,hid,hke,hk,hna,hn]

end MessageContext

lemma hexDigit_inj {n m : UInt8} (hn : n < 16) (hm : m < 16) (h : hexDigit n = hexDigit m) : n = m := by
 unfold hexDigit at h
 grind

lemma hex_injective : Function.Injective hex := by
 intro a b h
 induction a generalizing b with
 | nil =>
  cases b with
  | nil => rfl
  | cons y b => cases h
 | cons x a ih =>
  cases b with
  | nil => cases h
  | cons y b =>
   obtain ⟨hh,h⟩:=cons.inj h
   obtain ⟨hlow,h⟩:=cons.inj h
   have hxy : x = y := by
    have hd:=hexDigit_inj (by grind) (by grind) hh
    have hm:=hexDigit_inj (by grind) (by grind) hlow
    grind
   rw [hxy,ih h]

lemma hex_length (bs : Bytes) : (hex bs).length = 2 * bs.length := by
 induction bs with
 | nil => rfl
 | cons b bs ih =>
  have hc : hex (b :: bs) = hexDigit (b / 16) :: hexDigit (b % 16) :: hex bs := rfl
  simp only [hc,length_cons,ih]
  omega

lemma delimiting_display : Delimiting fun id : Bytes32 => some (display id) := by
 apply delimiting_of_length (n := 64)
 · intro id x h
   rw [← some.inj h,display,hex_length,id.toList_length]
 · intro id id' x h h'
   exact Subtype.ext (hex_injective ((some.inj h).trans (some.inj h').symm))

def Audience.stateWord : Audience → Bytes
  | pairwise => ascii "peer-slot" ++ [0] ++ ascii "pairwise" ++ [0]
  | publisher => ascii "peer-slot" ++ [0] ++ ascii "publisher" ++ [0]
  | group => ascii "peer-slot" ++ [0] ++ ascii "group" ++ [0]

lemma delimiting_stateWord : Delimiting fun a : Audience => some a.stateWord := by
 apply delimiting_of_code
 intro a b
 cases a <;> cases b <;> decide

def scopeAudience : PeerSlotScope → Audience
  | .pairwise => .pairwise
  | .publisher _ => .publisher
  | .group _ => .group

def scopeId : PeerSlotScope → Option Bytes32
  | .pairwise => none
  | .publisher peer => some peer
  | .group id => some id

lemma peerSlotStateKey_eq (name : Bytes) (scope : PeerSlotScope) : peerSlotStateKey name scope =
    (scopeAudience scope).stateWord ++ (scopeId scope).elim name fun id => display id ++ 0 :: name := by
 cases scope with
 | pairwise => rfl
 | publisher peer | group id => simp [peerSlotStateKey,scopeAudience,scopeId,Audience.stateWord]

lemma peerSlotStateKey_inj {name name' : Bytes} {scope scope' : PeerSlotScope}
    (h : peerSlotStateKey name scope = peerSlotStateKey name' scope') : name = name' ∧ scope = scope' := by
 rw [peerSlotStateKey_eq,peerSlotStateKey_eq] at h
 obtain ⟨ha,hrest⟩:=delimiting_stateWord rfl rfl h
 have hid : ∀ {id id' : Bytes32}, display id ++ 0 :: name = display id' ++ 0 :: name' → name = name' ∧ id = id' := by
  intro id id' heq
  obtain ⟨hid,hn⟩:=delimiting_display rfl rfl heq
  exact ⟨(cons.inj hn).2,hid⟩
 cases scope with
 | pairwise =>
  cases scope' with
  | pairwise => exact ⟨hrest,rfl⟩
  | publisher peer' | group id' => cases ha
 | publisher peer =>
  cases scope' with
  | pairwise | group id' => cases ha
  | publisher peer' => exact ⟨(hid hrest).1,congrArg _ (hid hrest).2⟩
 | group id =>
  cases scope' with
  | pairwise | publisher peer' => cases ha
  | group id' => exact ⟨(hid hrest).1,congrArg _ (hid hrest).2⟩

lemma validateName_peerSlotStateKey (name : Bytes) (scope : PeerSlotScope) :
    validateName (peerSlotStateKey name scope) ≠ .ok () := by
 intro h
 have hz : (0 : UInt8) ∈ (scopeAudience scope).stateWord := by
  cases scope with
  | pairwise => decide
  | publisher peer => exact (by decide : (0 : UInt8) ∈ Audience.publisher.stateWord)
  | group id => exact (by decide : (0 : UInt8) ∈ Audience.group.stateWord)
 have hb : nameByte 0 = true := by
  apply (validateName_eq_ok.mp h).2.2
  rw [peerSlotStateKey_eq]
  exact mem_append_left _ hz
 exact absurd hb (by decide)

/-- The derivations from a seed differ in their info strings, those of the public-key mode in their key, info or
associated data, and its slot counters are no others. -/
theorem derivation_domains_separate (P : Primitives) : (∀ (seed : Bytes32) (d : Derivation), d.derive P seed = (do
      d.validate
      return (hkdfSha256 P seed.toList [] d.info d.outLen).toList)) ∧
    Function.Injective Derivation.info ∧
    (∀ address kind name, peerAddressId P address kind name =
      hkdfSha256 P (addressInput (address, kind, name)).1 [] (addressInput (address, kind, name)).2 32) ∧
    Function.Injective addressInput ∧
    (∀ secret pub sender recipient kind name nonce, pairwiseMessageKey P secret pub kind name nonce =
      hkdfSha256 P (P.diffieHellman secret pub).toList []
        (MessageContext.pairwise sender recipient kind name nonce).info 32) ∧
    (∀ sender group key kind name nonce, groupMessageKey P group key kind name nonce =
      hkdfSha256 P key.secret.toList []
        (MessageContext.group sender group key.id kind name nonce).info 32) ∧
    Function.Injective (fun c : MessageContext => (c.info, c.aad)) ∧
    Function.Injective (fun p : Bytes × PeerSlotScope => peerSlotStateKey p.1 p.2) ∧
    ∀ name scope slot, validateName slot = .ok () → peerSlotStateKey name scope ≠ slot := by
 refine ⟨fun seed d=>d.derive_eq P seed,Derivation.info_injective,fun _ _ _=>rfl,
  addressInput_injective,fun _ _ _ _ _ _ _=>rfl,fun _ _ _ _ _ _=>rfl,?_,?_,?_⟩
 · intro c d h
   exact MessageContext.aad_injective (Prod.mk.inj h).2
 · intro p q h
   obtain ⟨hn,hs⟩:=peerSlotStateKey_inj h
   exact Prod.ext hn hs
 · intro name scope slot hsl heq
   exact validateName_peerSlotStateKey name scope (heq ▸ hsl)

theorem stateKey_apart_from_slot : validateName (ascii "peer-slot") = .ok () ∧
    peerSlotStateKey (ascii "a") .pairwise ≠ ascii "peer-slot" := by
 have hv : validateName (ascii "peer-slot") = .ok () := by decide
 exact ⟨hv,(derivation_domains_separate plainPrimitives).2.2.2.2.2.2.2.2 _ _ _ hv⟩

end Enlace.Domains
