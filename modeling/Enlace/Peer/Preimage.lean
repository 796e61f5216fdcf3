import Enlace.Coordinator.Envelope
import Enlace.Peer.GroupEnvelope

set_option autoImplicit false

/-! What the signatures of the three signed formats are made over, as strings that can be read in one
way only. -/
namespace Enlace.Peer
open ByteString Crypto Kdf Delimited List Option GroupEnvelope PeerRecipientEnvelope

def blockBytes {n : ℕ} (v : Block n) : Option Bytes := some v.toList

def kindByte (kind : ChannelKind) : Option Bytes := some [channelKindCode kind]

lemma delimiting_blockBytes (n : ℕ) : Delimiting (blockBytes (n := n)) := by
 apply delimiting_of_length (n := n)
 · intro v x h
   rw [← some.inj h]
   exact v.toList_length
 · intro v w x hv hw
   exact Subtype.ext ((some.inj hv).trans (some.inj hw).symm)

lemma delimiting_kindByte : Delimiting kindByte := by
 apply delimiting_of_length (n := 1)
 · intro kind x h
   rw [← some.inj h]
   rfl
 · intro kind kind' x h h'
   have hc:=singleton_inj.mp ((some.inj h).trans (some.inj h').symm)
   cases kind with
   | mailbox =>
    cases kind' with
    | mailbox => rfl
    | slot => exact absurd hc (by decide)
   | slot =>
    cases kind' with
    | mailbox => exact absurd hc (by decide)
    | slot => rfl

lemma writeLen_eq_some {n : ℕ} {b : Bytes} : writeLen n = some b ↔ n < 2^32 ∧ beBytes 4 n = b := by
 unfold writeLen
 split
 · rename_i h
   rw [some.injEq]
   exact (and_iff_right h).symm
 · rename_i h
   exact ⟨(nomatch ·),fun hb=>absurd hb.1 h⟩

lemma delimiting_writeLen : Delimiting writeLen := by
 apply delimiting_of_length (n := 4)
 · intro n b h
   rw [← (writeLen_eq_some.mp h).2,beBytes_length]
 · intro n m b hn hm
   obtain ⟨hn,hb⟩:=writeLen_eq_some.mp hn
   obtain ⟨hm,hb'⟩:=writeLen_eq_some.mp hm
   have hr:=congrArg ofBeBytes (hb.trans hb'.symm)
   rw [ofBeBytes_beBytes_of_lt 4 n (by omega),ofBeBytes_beBytes_of_lt 4 m (by omega)] at hr
   exact hr

lemma delimiting_writeLenPrefixed : Delimiting writeLenPrefixed := by
 intro a b x y ha hb r s h
 obtain ⟨len,hl,rfl⟩:=map_eq_some_iff.mp ha
 obtain ⟨len',hl',rfl⟩:=map_eq_some_iff.mp hb
 rw [append_assoc,append_assoc] at h
 obtain ⟨hs,h⟩:=delimiting_writeLen hl hl' h
 exact append_inj h hs

lemma PeerRecipientEnvelope.preimage_eq (r : PeerRecipientEnvelope) : r.preimage =
    andThen blockBytes (andThen blockBytes writeLenPrefixed) (r.recipient, r.nonce, r.ciphertext) := by
 simp [preimage,andThen,blockBytes,Function.comp_def]

lemma PeerRecipientEnvelope.delimiting_preimage : Delimiting preimage := by
 rw [funext preimage_eq]
 apply Delimiting.comap ((delimiting_blockBytes 32).andThen
  ((delimiting_blockBytes 24).andThen delimiting_writeLenPrefixed))
 intro r r' h
 cases r
 cases r'
 cases h
 rfl

lemma GroupEnvelopeEntry.preimage_eq (r : GroupEnvelopeEntry) : r.preimage =
    andThen blockBytes (andThen blockBytes (andThen blockBytes writeLenPrefixed))
      (r.group, r.keyId, r.nonce, r.ciphertext) := by
 simp [GroupEnvelopeEntry.preimage,andThen,blockBytes,Function.comp_def]

lemma GroupEnvelopeEntry.delimiting_preimage : Delimiting GroupEnvelopeEntry.preimage := by
 rw [funext GroupEnvelopeEntry.preimage_eq]
 apply Delimiting.comap ((delimiting_blockBytes 32).andThen ((delimiting_blockBytes 32).andThen
  ((delimiting_blockBytes 24).andThen delimiting_writeLenPrefixed)))
 intro r r' h
 cases r
 cases r'
 cases h
 rfl

section Signed

variable {α : Type} {item : α → Option Bytes}

def signedPart (item : α → Option Bytes) : PeerId × ChannelKind × Bytes × List α → Option Bytes :=
  andThen blockBytes (andThen kindByte (andThen writeLenPrefixed (counted writeLen item)))

lemma delimiting_signedPart (h : Delimiting item) : Delimiting (signedPart item) :=
 (delimiting_blockBytes 32).andThen (delimiting_kindByte.andThen
  (delimiting_writeLenPrefixed.andThen (delimiting_writeLen.counted h)))

lemma writeLen_isSome {n : ℕ} : (writeLen n).isSome = true ↔ n < 2^32 := by
 unfold writeLen
 split
 · rename_i h
   exact iff_of_true rfl h
 · rename_i h
   exact iff_of_false Bool.false_ne_true h

lemma writeLenPrefixed_isSome {bs : Bytes} : (writeLenPrefixed bs).isSome = true ↔ bs.length < 2^32 := by
 rw [writeLenPrefixed,isSome_map,writeLen_isSome]

lemma signedPart_isSome (sender : PeerId) (kind : ChannelKind) (name : Bytes) (items : List α) :
    (signedPart item (sender, kind, name, items)).isSome = true ↔ name.length < 2^32 ∧
      items.length < 2^32 ∧ ∀ a ∈ items, (item a).isSome = true := by
 simp only [signedPart,andThen_isSome,counted_isSome,writeLen_isSome,writeLenPrefixed_isSome,
  blockBytes,kindByte,isSome_some,true_and]

lemma tagged_signedPart (tag : Bytes) (item : α → Option Bytes) (sender : PeerId) (kind : ChannelKind)
    (name : Bytes) (items : List α) : (do
      let name ← writeLenPrefixed name
      let count ← writeLen items.length
      let entries ← items.mapM item
      return tag ++ [recordVersion] ++ sender.toList ++ [channelKindCode kind] ++ name ++ count ++ entries.flatten) =
    (signedPart item (sender, kind, name, items)).map (tag ++ recordVersion :: ·) := by
 simp only [signedPart,andThen,counted,blockBytes,kindByte,bind_some]
 cases writeLenPrefixed name with
 | none => rfl
 | some name =>
  cases writeLen items.length with
  | none => rfl
  | some count =>
   cases items.mapM item with
   | none => rfl
   | some entries => simp

lemma signedPart_inj (h : Delimiting item) {tag x : Bytes} {p q : PeerId × ChannelKind × Bytes × List α}
    (hp : (signedPart item p).map (tag ++ recordVersion :: ·) = some x)
    (hq : (signedPart item q).map (tag ++ recordVersion :: ·) = some x) : p = q := by
 obtain ⟨y,hy,rfl⟩:=map_eq_some_iff.mp hp
 obtain ⟨z,hz,heq⟩:=map_eq_some_iff.mp hq
 have hyz : z = y := (cons.inj (append_cancel_left heq)).2
 exact (delimiting_signedPart h).inj hy (hyz ▸ hz)

end Signed

def PeerEnvelope.signed (e : PeerEnvelope) : PeerId × ChannelKind × Bytes × List PeerRecipientEnvelope :=
  (e.sender, e.kind, e.name, e.recipients)

def GroupEnvelope.signed (e : GroupEnvelope) : PeerId × ChannelKind × Bytes × List GroupEnvelopeEntry :=
  (e.sender, e.kind, e.name, e.entries)

lemma PeerEnvelope.signaturePreimage_eq (e : PeerEnvelope) : e.signaturePreimage =
    (signedPart preimage e.signed).map (ascii "enlace/v1/pkey/sig/" ++ recordVersion :: ·) :=
 tagged_signedPart _ _ _ _ _ _

lemma GroupEnvelope.signaturePreimage_eq (e : GroupEnvelope) : e.signaturePreimage =
    (signedPart GroupEnvelopeEntry.preimage e.signed).map (ascii "enlace/v1/pkey/group/sig/" ++ recordVersion :: ·) :=
 tagged_signedPart _ _ _ _ _ _

lemma PeerEnvelope.exists_of_signaturePreimage {e : PeerEnvelope} {x : Bytes}
    (h : e.signaturePreimage = some x) : ∃ y, x = ascii "enlace/v1/pkey/sig/" ++ y := by
 rw [PeerEnvelope.signaturePreimage_eq] at h
 obtain ⟨y,_,rfl⟩:=map_eq_some_iff.mp h
 exact ⟨_,rfl⟩

lemma GroupEnvelope.exists_of_signaturePreimage {e : GroupEnvelope} {x : Bytes}
    (h : e.signaturePreimage = some x) : ∃ y, x = ascii "enlace/v1/pkey/group/sig/" ++ y := by
 rw [signaturePreimage_eq] at h
 obtain ⟨y,_,rfl⟩:=map_eq_some_iff.mp h
 exact ⟨_,rfl⟩

lemma exists_of_coordinator_signaturePreimage (kind : ChannelKind) (name payload : Bytes) (version : Option UInt64) :
    ∃ y, Coordinator.signaturePreimage kind name payload version = ascii "enlace/v1/sig/" ++ y := by
 exact ⟨_,rfl⟩

lemma PeerEnvelope.signaturePreimage_isSome {e : PeerEnvelope} :
    e.signaturePreimage.isSome = true ↔ e.name.length < 2^32 ∧
      e.recipients.length < 2^32 ∧ ∀ r ∈ e.recipients, r.ciphertext.length < 2^32 := by
 rw [PeerEnvelope.signaturePreimage_eq,isSome_map,PeerEnvelope.signed,signedPart_isSome]
 simp only [preimage,isSome_map,writeLenPrefixed_isSome]

lemma GroupEnvelope.signaturePreimage_isSome {e : GroupEnvelope} :
    e.signaturePreimage.isSome = true ↔ e.name.length < 2^32 ∧
      e.entries.length < 2^32 ∧ ∀ r ∈ e.entries, r.ciphertext.length < 2^32 := by
 rw [signaturePreimage_eq,isSome_map,signed,signedPart_isSome]
 simp only [GroupEnvelopeEntry.preimage,isSome_map,writeLenPrefixed_isSome]

/-- The preimages of either envelope exist for all that fits its length fields, determine what is signed, and are of no
other format. -/
theorem signaturePreimages_separate : (∀ e : PeerEnvelope, e.signaturePreimage.isSome = true ↔ e.name.length < 2^32 ∧
      e.recipients.length < 2^32 ∧ ∀ r ∈ e.recipients, r.ciphertext.length < 2^32) ∧
    (∀ e : GroupEnvelope, e.signaturePreimage.isSome = true ↔ e.name.length < 2^32 ∧
      e.entries.length < 2^32 ∧ ∀ r ∈ e.entries, r.ciphertext.length < 2^32) ∧
    (∀ (e e' : PeerEnvelope) (x : Bytes), e.signaturePreimage = some x →
      e'.signaturePreimage = some x → e.signed = e'.signed) ∧
    (∀ (e e' : GroupEnvelope) (x : Bytes), e.signaturePreimage = some x →
      e'.signaturePreimage = some x → e.signed = e'.signed) ∧
    (∀ (e : PeerEnvelope) (x : Bytes), e.signaturePreimage = some x →
      (∀ g : GroupEnvelope, g.signaturePreimage ≠ some x) ∧
      ∀ kind name payload version, Coordinator.signaturePreimage kind name payload version ≠ x) ∧
    ∀ (g : GroupEnvelope) (x : Bytes), g.signaturePreimage = some x →
      ∀ kind name payload version, Coordinator.signaturePreimage kind name payload version ≠ x := by
 refine ⟨fun _=>PeerEnvelope.signaturePreimage_isSome,fun _=>signaturePreimage_isSome,
  fun e e' x h h' => ?_,fun e e' x h h' => ?_,fun e x h=>⟨fun g hg=>?_,fun kind name payload version hx=>?_⟩,
  fun g x hg kind name payload version hx=>?_⟩
 · rw [PeerEnvelope.signaturePreimage_eq] at h h'
   exact signedPart_inj delimiting_preimage h h'
 · rw [signaturePreimage_eq] at h h'
   exact signedPart_inj GroupEnvelopeEntry.delimiting_preimage h h'
 · obtain ⟨y,rfl⟩:=PeerEnvelope.exists_of_signaturePreimage h
   obtain ⟨z,hz⟩:=exists_of_signaturePreimage hg
   exact ne_of_append (by decide) (by decide) y z hz
 · obtain ⟨y,rfl⟩:=PeerEnvelope.exists_of_signaturePreimage h
   obtain ⟨z,hz⟩:=exists_of_coordinator_signaturePreimage kind name payload version
   exact ne_of_append (by decide) (by decide) z y (hz.symm.trans hx)
 · obtain ⟨y,rfl⟩:=exists_of_signaturePreimage hg
   obtain ⟨z,hz⟩:=exists_of_coordinator_signaturePreimage kind name payload version
   exact ne_of_append (by decide) (by decide) z y (hz.symm.trans hx)

def plainPeerEnvelope (signature : UInt8) : PeerEnvelope :=
  ⟨zero32, .slot, ascii "s", [⟨pad 32 [2], pad 24 [], ascii "ab"⟩], pad 64 [signature]⟩

def plainGroupEnvelope (signature : UInt8) : GroupEnvelope :=
  ⟨zero32, .slot, ascii "s", [⟨zero32, pad 32 [2], pad 24 [], ascii "ab"⟩], pad 64 [signature]⟩

theorem signaturePreimages_separate_plain : ∃ x y, (plainPeerEnvelope 1).signaturePreimage = some x ∧
    (plainPeerEnvelope 1).signed = (plainPeerEnvelope 2).signed ∧
    (plainGroupEnvelope 1).signaturePreimage = some y ∧
    (plainGroupEnvelope 1).signed = (plainGroupEnvelope 2).signed ∧
    (plainGroupEnvelope 1).signaturePreimage ≠ some x ∧
    Coordinator.signaturePreimage .slot (ascii "s") (ascii "ab") (some 1) ≠ x ∧
    Coordinator.signaturePreimage .slot (ascii "s") (ascii "ab") (some 1) ≠ y := by
 obtain ⟨_,_,hpeer,hgr,ha,hg⟩:=signaturePreimages_separate
 exact ⟨_,_,rfl,hpeer _ _ _ rfl rfl,rfl,hgr _ _ _ rfl rfl,(ha (plainPeerEnvelope 1) _ rfl).1 _,
  (ha (plainPeerEnvelope 1) _ rfl).2 _ _ _ _,hg (plainGroupEnvelope 1) _ rfl _ _ _ _⟩

end Enlace.Peer
