import Enlace.Peer.Preimage

set_option autoImplicit false

/-! The bytes and the text in which a peer card is handed over (`peer.rs`). -/
namespace Enlace.Peer
open ByteString Fallible Crypto Delimited Cursor Option

def peerCardExportPrefix : Bytes := ascii "enlace-peer-card-v1:"

def peerCardRecordVersion : UInt8 := 1

def Normal.text {parse : Bytes → Option Bytes} (t : Normal parse) : Bytes := t.val

/-- Base64 and the check of `String::from_utf8`. A URL and a socket address print as text. -/
structure CardText (P : Primitives) where
  encode64 : Bytes → Bytes
  decode64 : Bytes → Option Bytes
  decode_encode : ∀ bytes, decode64 (encode64 bytes) = some bytes
  utf8 : Bytes → Bool
  utf8_url : ∀ url : Url P, utf8 url.text = true
  utf8_addr : ∀ addr : SocketAddr P, utf8 addr.text = true

/-- A count or a length that does not fit in 32 bits aborts. -/
def writeStringList (texts : List Bytes) : Option Bytes := counted writeLen writeLenPrefixed texts

section Decoder

abbrev CardDecoder := Decoder PeerCardError

def CardDecoder.u8 (field : String) : CardDecoder UInt8 := do
  return (← take (.truncated field) 1).headD 0

def CardDecoder.array (field : String) (n : ℕ) : CardDecoder (Block n) := do
  let bytes ← take (.truncated field) n
  check (okOr (.truncated field) (toBlock n bytes))

def CardDecoder.u32 (field : String) : CardDecoder ℕ := do
  return ofBeBytes (← CardDecoder.array field 4).toList

def CardDecoder.bytes (field : String) : CardDecoder Bytes := do
  take (.truncated field) (← CardDecoder.u32 field)

def CardDecoder.version : CardDecoder Unit := do
  let version ← CardDecoder.u8 "version"
  check (ensure (version == peerCardRecordVersion) .unsupportedVersion)

end Decoder

open CardDecoder

variable {P : Primitives}

def writeEndpoint : Option (IrohEndpointAddr P) → Option Bytes
  | none => some [0]
  | some e => do
    let relayUrls ← writeStringList (e.relayUrls.map Normal.text)
    let directAddrs ← writeStringList (e.directAddrs.map Normal.text)
    return [1] ++ (e.endpointId.toList ++ (relayUrls ++ directAddrs))

def PeerCard.toBytes (card : PeerCard P) : Option Bytes := do
  let endpoint ← writeEndpoint card.irohEndpoint
  return [peerCardRecordVersion] ++ (card.peerId.toList ++ (card.signingKey.toBytes.toList ++
    (card.exchangeKey.toList ++ endpoint)))

namespace CardText

variable (t : CardText P)

def readStrings (field : String) : ℕ → CardDecoder (List Bytes)
  | 0 => return []
  | n+1 => do
    let bytes ← CardDecoder.bytes field
    check (ensure (t.utf8 bytes) (.invalidUtf8 field))
    return bytes :: (← readStrings field n)

def readStringList (field : String) : CardDecoder (List Bytes) := do
  t.readStrings field (← u32 field)

def readEndpoint : CardDecoder (Option (IrohEndpointAddr P)) := do
  let flag ← u8 "iroh endpoint flag"
  if flag = 0 then return none
  else if flag = 1 then do
    let endpointId ← array "iroh endpoint id" 32
    let raw ← t.readStringList "relay url"
    let relayUrls ← check (raw.mapM fun raw => okOr .invalidRelayUrl (Normal.parse P.parseUrl raw))
    let raw ← t.readStringList "direct address"
    let directAddrs ← check (raw.mapM fun raw => okOr .invalidDirectAddr (Normal.parse P.parseSocketAddr raw))
    return some ⟨endpointId, relayUrls, directAddrs⟩
  else check (fail .invalidIrohEndpoint)

def readCard : CardDecoder (PeerCard P) := do
  version
  let peerId ← array "peer id" 32
  let raw ← array "signing key" 32
  let signingKey ← check (okOr .invalidSigningKey (VerifyingKey.fromBytes P raw))
  let exchangeKey ← array "exchange key" 32
  let irohEndpoint ← t.readEndpoint
  return ⟨peerId, signingKey, exchangeKey, irohEndpoint⟩

def fromBytes (bytes : Bytes) : Res PeerCardError (PeerCard P) := do
  let (card, rest) ← t.readCard bytes
  ensure rest.isEmpty .trailingBytes
  card.validate
  return card

def exportString (card : PeerCard P) : Option Bytes :=
  card.toBytes.map fun bytes => peerCardExportPrefix ++ t.encode64 bytes

def importString (exported : Bytes) : Res PeerCardError (PeerCard P) := do
  ensure (peerCardExportPrefix.isPrefixOf exported) .missingPrefix
  let bytes ← okOr .invalidEncoding (t.decode64 (exported.drop peerCardExportPrefix.length))
  t.fromBytes bytes

variable {t} {field : String} {texts : List Bytes}

lemma local_array (field : String) (n : ℕ) : Local (array field n) := (local_take _ _).bind fun _=>local_check _

lemma local_u8 (field : String) : Local (u8 field) := (local_take _ _).bind fun _=>local_pure _

lemma local_u32 (field : String) : Local (u32 field) := (local_array field 4).bind fun _=>local_pure _

lemma local_readStringList (field : String) : Local (t.readStringList field) := by
 refine (local_u32 field).bind fun n=>?_
 induction n with
 | zero => exact local_pure _
 | succ n ih =>
  refine ((local_u32 field).bind fun _=>local_take _ _).bind fun _=>(local_check _).bind fun _=>?_
  exact ih.bind fun _=>local_pure _

lemma local_readCard : Local t.readCard := by
 have he : Local t.readEndpoint := by
  refine (local_u8 _).bind fun _=>local_ite (local_pure _) (local_ite ?_ (local_check _))
  refine (local_array _ _).bind fun _=>(local_readStringList _).bind fun _=>(local_check _).bind fun _=>?_
  exact (local_readStringList _).bind fun _=>(local_check _).bind fun _=>local_pure _
 refine ((local_u8 _).bind fun _=>local_check _).bind fun _=>(local_array _ _).bind fun _=>?_
 refine (local_array _ _).bind fun _=>(local_check _).bind fun _=>(local_array _ _).bind fun _=>?_
 exact he.bind fun _=>local_pure _

lemma reads_u8 (field : String) (byte : UInt8) : Reads (u8 field) [byte] byte :=
 (reads_take (x := [byte]) _ rfl).last (reads_pure _)

lemma reads_array {n : ℕ} (v : Block n) : Reads (array field n) v.toList v :=
 (reads_take _ v.toList_length).last (reads_check (by rw [toBlock_toList,okOr_some]))

lemma reads_u32 {n : ℕ} (h : n < 2^32) : Reads (u32 field) (beBytes 4 n) n := by
 have hr:=ofBeBytes_beBytes_of_lt 4 n (by omega)
 have ha : Reads (array field 4) (beBytes 4 n) ⟨beBytes 4 n,beBytes_length 4 n⟩ :=
  reads_array (⟨beBytes 4 n,beBytes_length 4 n⟩ : Block 4)
 have hl : Reads (u32 field) (beBytes 4 n) (ofBeBytes (beBytes 4 n)) := ha.last (reads_pure _)
 rwa [hr] at hl

lemma reads_readStrings {xs : List Bytes} (h : texts.mapM writeLenPrefixed = some xs)
    (ht : ∀ text ∈ texts, t.utf8 text = true) : Reads (t.readStrings field texts.length) xs.flatten texts := by
 induction texts generalizing xs with
 | nil =>
  cases h
  exact reads_pure _
 | cons text texts ih =>
  simp only [List.mapM_cons,bind_eq_bind,bind_eq_some_iff,pure_def,some.injEq] at h
  obtain ⟨_,hx,xs,hxs,rfl⟩:=h
  obtain ⟨_,hl,rfl⟩:=map_eq_some_iff.mp hx
  obtain ⟨hf,rfl⟩:=writeLen_eq_some.mp hl
  obtain ⟨hte,ht⟩:=List.forall_mem_cons.mp ht
  refine ((reads_u32 hf).bind (reads_take _ rfl)).bind (Reads.bind (reads_check (a := ()) ?_) ?_)
  · simp [hte]
  · exact (ih hxs ht).last (reads_pure _)

variable {bytes : Bytes}

lemma reads_readStringList (h : writeStringList texts = some bytes)
    (ht : ∀ text ∈ texts, t.utf8 text = true) : Reads (t.readStringList field) bytes texts := by
 obtain ⟨_,hc,hi⟩:=bind_eq_some_iff.mp h
 obtain ⟨xs,hxs,rfl⟩:=map_eq_some_iff.mp hi
 obtain ⟨hf,rfl⟩:=writeLen_eq_some.mp hc
 exact (reads_u32 hf).bind (reads_readStrings hxs ht)

lemma reads_parse {e : PeerCardError} {parse : Bytes → Option Bytes} (values : List (Normal parse)) :
    Reads (check ((values.map Normal.text).mapM fun raw => okOr e (Normal.parse parse raw))) [] values :=
 reads_check (mapM_map_ok fun v _=>by rw [Normal.text,Normal.parse_val,okOr_some])

lemma reads_readEndpoint {ep : Option (IrohEndpointAddr P)}
    (h : writeEndpoint ep = some bytes) : Reads t.readEndpoint bytes ep := by
 cases ep with
 | none =>
  cases h
  exact (reads_u8 _ 0).last (reads_pure _)
 | some e =>
  simp only [writeEndpoint,bind_eq_bind,bind_eq_some_iff,pure_def,some.injEq] at h
  obtain ⟨urls,hu,addrs,ha,rfl⟩:=h
  have hu : Reads (t.readStringList "relay url") urls _ := reads_readStringList hu (by simp [t.utf8_url])
  have ha : Reads (t.readStringList "direct address") addrs _ := reads_readStringList ha (by simp [t.utf8_addr])
  refine (reads_u8 _ 1).bind ((reads_array e.endpointId).bind (hu.bind ((reads_parse e.relayUrls).bind ?_)))
  exact ha.last ((reads_parse e.directAddrs).bind (reads_pure _))

lemma reads_readCard {card : PeerCard P} (h : card.toBytes = some bytes) : Reads t.readCard bytes card := by
 obtain ⟨ep,he,heq⟩:=bind_eq_some_iff.mp h
 cases heq
 have hv : Reads version [peerCardRecordVersion] () := (reads_u8 _ _).last (reads_check rfl)
 refine hv.bind ((reads_array card.peerId).bind ((reads_array card.signingKey.toBytes).bind ?_))
 have hk : Reads (check (okOr PeerCardError.invalidSigningKey (VerifyingKey.fromBytes P card.signingKey.toBytes)))
   [] card.signingKey := reads_check (by rw [VerifyingKey.fromBytes_toBytes,okOr_some])
 exact hk.bind ((reads_array card.exchangeKey).bind ((reads_readEndpoint he).last (reads_pure _)))

lemma fromBytes_eq_ok {card : PeerCard P} :
    t.fromBytes bytes = .ok card ↔ t.readCard bytes = .ok (card, []) ∧ card.validate = .ok () := by
 simp only [fromBytes,bind_eq_ok,ensure_eq_ok,pure_eq_ok,List.isEmpty_iff]
 constructor
 · rintro ⟨⟨_,_⟩,hr,_,rfl,_,hv,rfl⟩
   exact ⟨hr,hv⟩
 · rintro ⟨hr,hv⟩
   exact ⟨_,hr,(),rfl,(),hv,rfl⟩

end CardText

/-- The counts and lengths that are written fit in 32 bits. -/
def TextsFit (texts : List Bytes) : Prop := texts.length < 2^32 ∧ ∀ text ∈ texts, text.length < 2^32

def PeerCard.Fits (card : PeerCard P) : Prop :=
  ∀ e ∈ card.irohEndpoint, TextsFit (e.relayUrls.map Normal.text) ∧ TextsFit (e.directAddrs.map Normal.text)

lemma writeStringList_isSome (texts : List Bytes) : (writeStringList texts).isSome = true ↔ TextsFit texts := by
 simp [writeStringList,counted_isSome,writeLenPrefixed,writeLen,TextsFit]

lemma PeerCard.toBytes_isSome (card : PeerCard P) : card.toBytes.isSome = true ↔ card.Fits := by
 unfold toBytes Fits
 cases card.irohEndpoint with
 | none => simp [writeEndpoint]
 | some e =>
  cases hu : writeStringList (e.relayUrls.map Normal.text) with
  | none => simp [writeEndpoint,← writeStringList_isSome,hu]
  | some urls => simp [writeEndpoint,← writeStringList_isSome,hu,isSome_bind]

open CardText

/-- A valid card is read back from its bytes and its text, and nothing from a part or a continuation, exactly if its
counts and lengths fit in 32 bits; a card that is read is valid. -/
theorem card_codec_iff (t : CardText P) (card : PeerCard P) (hvalid : card.validate = .ok ()) :
    ((∃ bytes, card.toBytes = some bytes ∧ t.fromBytes bytes = .ok card ∧
      (∃ text, t.exportString card = some text ∧ t.importString text = .ok card) ∧
      (∀ part rest, rest ≠ [] → part ++ rest = bytes → ∀ other, t.fromBytes part ≠ .ok other) ∧
      ∀ more, more ≠ [] → ∀ other, t.fromBytes (bytes ++ more) ≠ .ok other) ↔ card.Fits) ∧
    ∀ bytes other, t.fromBytes bytes = .ok other → other.validate = .ok () := by
 refine ⟨?_,fun bytes other h=>(fromBytes_eq_ok.mp h).2⟩
 rw [← card.toBytes_isSome,isSome_iff_exists]
 refine exists_congr fun bytes=>⟨fun h=>h.1,fun hb=>?_⟩
 have hr:=reads_readCard (t := t) hb
 have hc : t.fromBytes bytes = .ok card := fromBytes_eq_ok.mpr ⟨by simpa using hr [],hvalid⟩
 refine ⟨hb,hc,⟨_,by rw [exportString,hb]; rfl,?_⟩,?_,?_⟩
 · simp [importString,t.decode_encode,hc]
 · rintro part rest hrest rfl other ho
   exact hrest (local_readCard.not_reads_part hr (fromBytes_eq_ok.mp ho).1)
 · intro more hm other ho
   have hre:=(fromBytes_eq_ok.mp ho).1
   rw [hr more] at hre
   exact hm (Prod.mk.inj (Except.ok.inj hre)).2

section Plain

def plainText : CardText plainPrimitives := ⟨id, some, fun _ => rfl, fun _ => true, fun _ => rfl, fun _ => rfl⟩

def plainUrl : Url plainPrimitives := ⟨ascii "https://relay.test/", rfl⟩

def cardWith (n : ℕ) : PeerCard plainPrimitives :=
  PeerIdentity.cardWithIrohEndpoint ⟨zero32, zero32, none⟩
    ⟨List.Vector.replicate 32 8, List.replicate n plainUrl, []⟩

lemma validate_cardWith (n : ℕ) : (cardWith n).validate = .ok () := by
 have hk : allZero (plainPrimitives.exchangePublic zero32) = false := by decide +kernel
 have he : allZero (List.Vector.replicate 32 8) = false := by decide +kernel
 exact PeerCard.validate_eq_ok.mpr ⟨rfl,hk,by rintro e ⟨⟩; exact he⟩

lemma fits_cardWith (n : ℕ) : (cardWith n).Fits ↔ n < 2^32 := by
 have hu : plainUrl.text.length < 4294967296 := by decide +kernel
 simp [PeerCard.Fits,cardWith,PeerIdentity.cardWithIrohEndpoint,PeerCard.new,TextsFit,hu]

theorem card_codec_two : (cardWith 2).validate = .ok () ∧
    ∃ bytes, (cardWith 2).toBytes = some bytes ∧ plainText.fromBytes bytes = .ok (cardWith 2) := by
 obtain ⟨bytes,hb,hr,_⟩:=(card_codec_iff plainText (cardWith 2) (validate_cardWith 2)).1.mpr
  ((fits_cardWith 2).mpr (by decide))
 exact ⟨validate_cardWith 2,bytes,hb,hr⟩

/-- A valid card for which there are no bytes. -/
theorem card_of_many_urls : (cardWith (2^32)).validate = .ok () ∧ (cardWith (2^32)).toBytes = none := by
 refine ⟨validate_cardWith _,not_isSome_iff_eq_none.mp fun h=>?_⟩
 exact Nat.lt_irrefl _ ((fits_cardWith _).mp ((PeerCard.toBytes_isSome _).mp h))

end Plain

end Enlace.Peer
