import Enlace.Lib.Sparse
import Enlace.Quic.Varint

set_option autoImplicit false

/-! `crypto-stream.ts` and `tls-crypto-stream.ts`: the handshake stream, put together from CRYPTO frames. -/
namespace Enlace.Quic
open ByteString Fallible List Sparse

structure QuicCryptoFrame where
  cryptoOffset : ℕ
  data : Bytes

variable {frames done rest : List QuicCryptoFrame} {frame : QuicCryptoFrame} {length i n : ℕ} {b : UInt8}
  {out written : Sparse UInt8} {stream : Bytes}

namespace QuicCryptoFrame

def Says (frame : QuicCryptoFrame) (i : ℕ) (b : UInt8) : Prop :=
  ∃ j, i = frame.cryptoOffset + j ∧ frame.data[j]? = some b

/-- A round of the second loop. Bytes are only ever added, so `contiguousLength` is counted from the start here. -/
def write (length : ℕ) (out : Sparse UInt8) (frame : QuicCryptoFrame) : Outcome (Sparse UInt8) := do
  throwIf (out.agrees frame.cryptoOffset frame.data = false) "conflicting QUIC CRYPTO stream data"
  let written := out.write frame.cryptoOffset frame.data
  throwIf (frame.cryptoOffset > (written.contiguous length 0).length) "QUIC CRYPTO stream has a gap"
  return written

def sorted (frames : List QuicCryptoFrame) : List QuicCryptoFrame :=
  frames.insertionSort fun left right => left.cryptoOffset ≤ right.cryptoOffset

def largestEnd (frames : List QuicCryptoFrame) : ℕ :=
  frames.foldr (fun frame length => max (frame.cryptoOffset + frame.data.length) length) 0

end QuicCryptoFrame

open QuicCryptoFrame

def assembleQuicCryptoStream (frames : List QuicCryptoFrame) : Outcome Bytes := do
  let length := largestEnd (sorted frames)
  let out ← (sorted frames).foldlM (QuicCryptoFrame.write length) ∅
  throwIf ((out.contiguous length 0).length ≠ length) "QUIC CRYPTO stream has a gap"
  return out.contiguous length 0

/-- `stream` ends with the last frame and holds the bytes of the frames, every one of them and no others. -/
structure IsStream (frames : List QuicCryptoFrame) (stream : Bytes) : Prop where
  length : stream.length = largestEnd frames
  bytes : ∀ i b, stream[i]? = some b ↔ ∃ frame ∈ frames, frame.Says i b

def Written (done : List QuicCryptoFrame) (out : Sparse UInt8) : Prop :=
  ∀ i b, out.lookup i = some b ↔ ∃ frame ∈ done, frame.Says i b

lemma write_eq_ok : frame.write length out = .ok written ↔ Agrees out frame.cryptoOffset frame.data ∧
    frame.cryptoOffset ≤ (written.contiguous length 0).length ∧ out.write frame.cryptoOffset frame.data = written := by
 simp only [QuicCryptoFrame.write,bind_eq_ok,throwIf_eq_ok,pure_eq_ok,Bool.not_eq_false,agrees_iff,Nat.not_lt]
 constructor
 · rintro ⟨_,ha,_,hle,rfl⟩
   exact ⟨ha,hle,rfl⟩
 · rintro ⟨ha,hle,rfl⟩
   exact ⟨(),ha,(),hle,rfl⟩

lemma Written.write (h : Written done out) (ha : Agrees out frame.cryptoOffset frame.data) :
    Written (frame :: done) (out.write frame.cryptoOffset frame.data) := by
 intro i b
 simp only [exists_mem_cons_iff,← h i b]
 constructor
 · intro hb
   by_cases hlt : i < frame.cryptoOffset
   · exact .inr ((lookup_write_of_lt _ hlt).symm.trans hb)
   · obtain ⟨j,rfl⟩:=Nat.exists_eq_add_of_le (Nat.not_lt.mp hlt)
     rw [lookup_write_add,Option.or_eq_some_iff] at hb
     exact hb.imp (fun hj=>⟨j,rfl,hj⟩) And.right
 · rintro (⟨j,rfl,hj⟩|hb)
   · rw [lookup_write_add,hj,Option.some_or]
   · exact lookup_write_of_some ha hb

lemma Written.foldlM (h : Written done out) (hr : rest.foldlM (QuicCryptoFrame.write length) out = .ok written) :
    Written (rest.reverse ++ done) written := by
 induction rest generalizing done out with
 | nil =>
  cases hr
  exact h
 | cons frame rest ih =>
  rw [foldlM_cons,bind_eq_ok] at hr
  obtain ⟨next,hw,hrest⟩:=hr
  obtain ⟨ha,_,rfl⟩:=write_eq_ok.mp hw
  rw [reverse_cons,append_assoc]
  exact ih (h.write ha) hrest

lemma largestEnd_le : largestEnd frames ≤ n ↔ ∀ frame ∈ frames, frame.cryptoOffset + frame.data.length ≤ n := by
 induction frames with
 | nil => simp [largestEnd]
 | cons frame frames ih => simp [← ih,largestEnd]

lemma lt_largestEnd (hf : frame ∈ frames) (h : frame.Says i b) : i < largestEnd frames := by
 obtain ⟨j,rfl,hj⟩:=h
 have hle:=largestEnd_le.mp (le_refl _) frame hf
 have hlt:=(List.getElem?_eq_some_iff.mp hj).1
 omega

/-- Before the end of the stream, the bytes that are written have a gap only where a frame is still to come. -/
lemma exists_unwritten (hs : IsStream frames stream) (h : Written done out)
    (hg : (out.contiguous stream.length 0).length < stream.length) :
    ∃ frame ∈ frames, frame ∉ done ∧ frame.cryptoOffset ≤ (out.contiguous stream.length 0).length := by
 obtain ⟨frame,hf,hb⟩:=(hs.bytes _ _).mp (getElem?_eq_getElem hg)
 have hn:=lookup_contiguous_length hg
 rw [Nat.zero_add] at hn
 refine ⟨frame,hf,fun hd=>?_,?_⟩
 · rw [(h _ _).mpr ⟨frame,hd,hb⟩] at hn
   cases hn
 · obtain ⟨j,hj,_⟩:=hb
   omega

lemma exists_foldlM (hs : IsStream frames stream) (h : Written done out)
    (hso : rest.Pairwise fun left right => left.cryptoOffset ≤ right.cryptoOffset)
    (hm : ∀ frame, frame ∈ frames ↔ frame ∈ done ∨ frame ∈ rest) :
    ∃ written, rest.foldlM (write stream.length) out = .ok written := by
 induction rest generalizing done out with
 | nil => exact ⟨out,rfl⟩
 | cons frame rest ih =>
  obtain ⟨hh,ht⟩:=pairwise_cons.mp hso
  have hf : frame ∈ frames := (hm frame).mpr (.inr mem_cons_self)
  have hag : Agrees out frame.cryptoOffset frame.data := fun i a b ha hb=>by
   obtain ⟨other,ho,hby⟩:=(h _ _).mp hb
   have hr:=(hs.bytes _ _).mpr ⟨other,(hm other).mpr (.inl ho),hby⟩
   rw [(hs.bytes _ _).mpr ⟨frame,hf,i,rfl,ha⟩] at hr
   exact (Option.some_inj.mp hr).symm
  have hn:=h.write hag
  have hle : frame.cryptoOffset ≤ ((out.write frame.cryptoOffset frame.data).contiguous stream.length 0).length := by
   by_contra hlt
   have he:=largestEnd_le.mp hs.length.ge frame hf
   obtain ⟨other,ho,hne,hle⟩:=exists_unwritten hs hn (by omega)
   have hrest : other ∈ rest := by simpa [(by simpa using hne : ¬ other = frame ∧ other ∉ done)] using (hm other).mp ho
   have := hh other hrest
   omega
  rw [foldlM_cons,write_eq_ok.mpr ⟨hag,hle,rfl⟩]
  refine ih hn ht fun other=>?_
  rw [hm,mem_cons,mem_cons]
  tauto

lemma pairwise_sorted (frames : List QuicCryptoFrame) :
    (sorted frames).Pairwise fun left right => left.cryptoOffset ≤ right.cryptoOffset :=
 have : Std.Total fun left right : QuicCryptoFrame=>left.cryptoOffset ≤ right.cryptoOffset :=
  ⟨fun _ _=>Nat.le_total _ _⟩
 have : IsTrans QuicCryptoFrame fun left right=>left.cryptoOffset ≤ right.cryptoOffset := ⟨fun _ _ _=>Nat.le_trans⟩
 pairwise_insertionSort _ frames

lemma IsStream.perm {other : List QuicCryptoFrame} (hs : IsStream frames stream) (h : frames.Perm other) :
    IsStream other stream := by
 have he : largestEnd frames = largestEnd other := eq_of_forall_ge_iff fun n=>by simp only [largestEnd_le,h.mem_iff]
 exact ⟨he ▸ hs.length,fun i b=>by simpa only [h.mem_iff] using hs.bytes i b⟩

lemma getElem?_contiguous (h : Written frames out)
    (hfu : (out.contiguous (largestEnd frames) 0).length = largestEnd frames) :
    (out.contiguous (largestEnd frames) 0)[i]? = some b ↔ ∃ frame ∈ frames, frame.Says i b := by
 by_cases hi : i < largestEnd frames
 · rw [← lookup_contiguous (hfu.symm ▸ hi),Nat.zero_add,h]
 · rw [getElem?_eq_none (by omega)]
   exact ⟨by simp,fun ⟨frame,hf,hb⟩=>absurd (lt_largestEnd hf hb) hi⟩

lemma assembleQuicCryptoStream_eq_ok : assembleQuicCryptoStream frames = .ok stream ↔ IsStream frames stream := by
 have hst : Written [] (∅ : Sparse UInt8) := fun i b=>by simp
 have hp : (sorted frames).Perm frames := perm_insertionSort _ frames
 have hw : ∀ out n, (sorted frames).foldlM (QuicCryptoFrame.write n) ∅ = .ok out → Written (sorted frames) out :=
  fun out n hr i b=>by simpa using hst.foldlM hr i b
 simp only [assembleQuicCryptoStream,bind_eq_ok,throwIf_eq_ok,pure_eq_ok,not_not]
 constructor
 · rintro ⟨out,hr,_,hf,rfl⟩
   exact IsStream.perm ⟨hf,fun _ _=>getElem?_contiguous (hw out _ hr) hf⟩ hp
 · intro hs
   have hs:=hs.perm hp.symm
   obtain ⟨out,hr⟩:=exists_foldlM hs hst (pairwise_sorted frames) (by simp)
   have h:=hw out _ hr
   have hf : (out.contiguous stream.length 0).length = stream.length := by
    refine le_antisymm (contiguous_length_le _ _ _) (Nat.not_lt.mp fun hlt=>?_)
    obtain ⟨frame,hfr,hn,_⟩:=exists_unwritten hs h hlt
    exact hn hfr
   rw [hs.length] at hr hf
   refine ⟨out,hr,(),hf,ext_getElem? fun i=>Option.ext fun b=>?_⟩
   exact (getElem?_contiguous h hf).trans (hs.bytes i b).symm

structure TlsHandshake (Body : Type) where
  body : Body
  offset : ℕ
  endOffset : ℕ

structure QuicTlsHandshakeMessages (Body : Type) where
  cryptoStream : Bytes
  messages : List (TlsHandshake Body × Bytes)
  endOffset : ℕ

def readU24BE (bytes : Bytes) (offset : ℕ) : Outcome ℕ := do
  let b0 ← readU8 bytes offset
  let b1 ← readU8 bytes (offset + 1)
  let b2 ← readU8 bytes (offset + 2)
  return b0.toNat*2^16 + b1.toNat*2^8 + b2.toNat

-- `parseClientHello` and `parseServerHello` on messages of their types, a copy of the bytes on any other
variable {Body : Type} (parseBody : UInt8 → Bytes → Outcome Body)

def parseTlsHandshake (bytes : Bytes) (offset : ℕ) : Outcome (TlsHandshake Body) := do
  throwIf (bytes.length - offset < 4) "not enough bytes for TLS handshake header"
  let handshakeType ← readU8 bytes offset
  let bodyLength ← readU24BE bytes (offset + 1)
  let endOffset := offset + 4 + bodyLength
  throwIf (bytes.length < endOffset) "not enough bytes for TLS handshake body"
  let body ← parseBody handshakeType (subarray bytes (offset + 4) endOffset)
  return ⟨body, offset, endOffset⟩

/-- The loop of `parseTlsHandshakes`. Every message takes bytes, so as many rounds as there are bytes are enough. -/
def parseTlsHandshakes (bytes : Bytes) : ℕ → ℕ → Outcome (List (TlsHandshake Body) × ℕ)
  | 0, pos => .ok ([], pos)
  | rounds + 1, pos =>
    if pos < bytes.length then do
      let handshake ← parseTlsHandshake parseBody bytes pos
      let (handshakes, endOffset) ← parseTlsHandshakes bytes rounds handshake.endOffset
      return (handshake :: handshakes, endOffset)
    else .ok ([], pos)

def collectQuicTlsHandshakeMessages (frames : List QuicCryptoFrame) : Outcome (QuicTlsHandshakeMessages Body) := do
  let cryptoStream ← assembleQuicCryptoStream frames
  let (handshakes, endOffset) ← parseTlsHandshakes parseBody cryptoStream cryptoStream.length 0
  return ⟨cryptoStream, handshakes.map fun handshake =>
    (handshake, subarray cryptoStream handshake.offset handshake.endOffset), endOffset⟩

lemma flatten_parseTlsHandshakes {bytes : Bytes} {rounds pos : ℕ} {handshakes : List (TlsHandshake Body)}
    (hr : bytes.length ≤ pos + rounds) (h : parseTlsHandshakes parseBody bytes rounds pos = .ok (handshakes, n)) :
    (handshakes.map fun hs => subarray bytes hs.offset hs.endOffset).flatten = bytes.drop pos := by
 induction rounds generalizing pos handshakes with
 | zero =>
  cases h
  exact (drop_eq_nil_of_le hr).symm
 | succ rounds ih =>
  rw [parseTlsHandshakes] at h
  by_cases hp : pos < bytes.length
  · simp only [if_pos hp,bind_eq_ok,pure_eq_ok,parseTlsHandshake,Prod.mk.injEq] at h
    obtain ⟨_,⟨_,_,_,_,length,_,_,_,body,_,rfl⟩,⟨rest,last⟩,hrest,rfl,rfl⟩:=h
    have he : pos+4+length - pos = 4+length := by omega
    rw [map_cons,flatten_cons,ih (by dsimp only; omega) hrest,subarray,he,Nat.add_assoc,← drop_drop,take_append_drop]
  · rw [if_neg hp] at h
    cases h
    exact (drop_eq_nil_of_le (by omega)).symm

/-- The stream is the one that the frames say, in whatever order they come, and the messages are all of it. -/
theorem crypto_stream_assembled (frames : List QuicCryptoFrame) :
    (∀ stream, assembleQuicCryptoStream frames = .ok stream ↔ IsStream frames stream) ∧
      (∀ other stream, frames.Perm other →
        (assembleQuicCryptoStream other = .ok stream ↔ assembleQuicCryptoStream frames = .ok stream)) ∧
      ∀ result, collectQuicTlsHandshakeMessages parseBody frames = .ok result →
        assembleQuicCryptoStream frames = .ok result.cryptoStream ∧
          (result.messages.map Prod.snd).flatten = result.cryptoStream := by
 refine ⟨fun _=>assembleQuicCryptoStream_eq_ok,fun other stream hp=>?_,fun result h=>?_⟩
 · rw [assembleQuicCryptoStream_eq_ok,assembleQuicCryptoStream_eq_ok]
   exact ⟨fun h=>h.perm hp.symm,fun h=>h.perm hp⟩
 · simp only [collectQuicTlsHandshakeMessages,bind_eq_ok,pure_eq_ok] at h
   obtain ⟨stream,hs,⟨handshakes,n⟩,hpa,rfl⟩:=h
   refine ⟨hs,?_⟩
   simpa [Function.comp_def] using flatten_parseTlsHandshakes parseBody (by omega) hpa

end Enlace.Quic
