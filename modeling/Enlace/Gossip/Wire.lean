import Enlace.Crypto
import Enlace.Quic.Varint

set_option autoImplicit false

/-! The messages of `gossip/wire.ts`. Identifiers have the length that the source checks them for. -/
namespace Enlace.Gossip
open ByteString Enlace.Crypto Fallible Enlace.Quic List

abbrev PeerId := Bytes32

abbrev TopicId := Bytes32

abbrev MessageId := Bytes32

def idOf (byte : UInt8) : Bytes32 := List.Vector.replicate 32 byte

structure GossipPeerInfo where
  id : PeerId
  peerData : Option Bytes
  deriving DecidableEq

inductive GossipSwarmNeighborPriority where
  | high
  | low
  deriving DecidableEq

inductive GossipDeliveryScope where
  | swarm (round : ℕ)
  | neighbors
  deriving DecidableEq

structure GossipIHaveEntry where
  id : MessageId
  round : ℕ
  deriving DecidableEq

structure GossipBroadcastMessage where
  id : MessageId
  content : Bytes
  scope : GossipDeliveryScope
  deriving DecidableEq

/-- The messages of the swarm layer, then those of the gossip layer. -/
inductive GossipTopicMessage where
  | join (peerData : Option Bytes)
  | forwardJoin (peer : GossipPeerInfo) (ttl : ℕ)
  | shuffle (origin : PeerId) (nodes : List GossipPeerInfo) (ttl : ℕ)
  | shuffleReply (nodes : List GossipPeerInfo)
  | neighbor (priority : GossipSwarmNeighborPriority) (peerData : Option Bytes)
  | disconnect (alive respond : Bool)
  | gossip (message : GossipBroadcastMessage)
  | prune
  | graft (id : Option MessageId) (round : ℕ)
  | ihave (messages : List GossipIHaveEntry)
  deriving DecidableEq

/-- The loop of `encodePostcardLen`; a value is fuel enough for its own digits. -/
def postcardDigits : ℕ → ℕ → Bytes
  | 0, remaining => [UInt8.ofNat remaining]
  | fuel + 1, remaining =>
    if remaining ≥ 0x80 then UInt8.ofNat (remaining % 0x80 ||| 0x80) :: postcardDigits fuel (remaining / 0x80)
    else [UInt8.ofNat remaining]

/-- The source throws from 2^53 on. The integers of a message that was decoded are below 2^42. -/
def encodePostcardLen (value : ℕ) : Bytes := postcardDigits value value

def encodeGossipStreamFrame (payload : Bytes) : Bytes := beBytes 4 payload.length ++ payload

def encodeIHaveEntry (message : GossipIHaveEntry) : Bytes := message.id.toList ++ encodePostcardLen message.round

def encodeGossipIHaveMessage (messages : List GossipIHaveEntry) : Bytes :=
  encodeGossipStreamFrame (encodePostcardLen 1 ++ encodePostcardLen 3 ++ encodePostcardLen messages.length ++
    messages.flatMap encodeIHaveEntry)

/-! `GossipFrameReader` of `gossip/wire.ts`. -/

structure GossipStreamRead where
  data : Bytes
  complete : Bool

/-- `reads` are the results that the stream has still to give. -/
structure GossipFrameReader where
  reads : List GossipStreamRead
  buffer : Bytes
  complete : Bool

namespace GossipFrameReader

section
variable (maxFrameSize : ℕ)

def tryReadBufferedFrame (buffer : Bytes) : Outcome (Option (Bytes × Bytes)) := do
  if buffer.length < 4 then return none
  else
    let length ← readU32BE buffer 0
    throwIf (length > maxFrameSize) "gossip stream frame exceeds max size"
    if buffer.length < 4 + length then return none
    else return some (subarray buffer 4 (4 + length), buffer.drop (4 + length))

/-- The call does not return while the stream gives nothing. -/
def readFrame (reads : List GossipStreamRead) (buffer : Bytes) (complete : Bool) :
    Option (Outcome (Option Bytes) × GossipFrameReader) :=
  match tryReadBufferedFrame maxFrameSize buffer with
  | .error thrown => some (.error thrown, ⟨reads, buffer, complete⟩)
  | .ok (some (payload, rest)) => some (.ok (some payload), ⟨reads, rest, complete⟩)
  | .ok none =>
    if complete then
      some (if buffer.length ≠ 0 then throwRange "incomplete gossip stream frame" else .ok none,
        ⟨reads, buffer, complete⟩)
    else
      match reads with
      | [] => none
      | chunk :: reads => readFrame reads (buffer ++ chunk.data) chunk.complete

/-- What the calls give, up to the first that gives no frame. -/
def readFrames : ℕ → GossipFrameReader → List (Outcome (Option Bytes))
  | 0, _ => []
  | calls + 1, r =>
    match readFrame maxFrameSize r.reads r.buffer r.complete with
    | none => []
    | some (.ok (some payload), next) => .ok (some payload) :: readFrames calls next
    | some (result, _) => [result]

/-- The length field at the start of the bytes. -/
def prefixed (bytes : Bytes) : ℕ := ofBeBytes (bytes.take 4)

/-- The payloads that the bytes are made of, and how they end. -/
def payloads (bytes : Bytes) : List (Outcome (Option Bytes)) :=
  if bytes = [] then [.ok none]
  else if bytes.length < 4 then [throwRange "incomplete gossip stream frame"]
  else if prefixed bytes > maxFrameSize then [throwRange "gossip stream frame exceeds max size"]
  else if bytes.length < 4 + prefixed bytes then [throwRange "incomplete gossip stream frame"]
  else .ok (some ((bytes.drop 4).take (prefixed bytes))) :: payloads (bytes.drop (4 + prefixed bytes))
termination_by bytes.length
decreasing_by grind

variable {maxFrameSize}

/-- Just the last read says that the stream is complete. -/
def Ends : Bool → List GossipStreamRead → Prop
  | complete, [] => complete = true
  | complete, chunk :: reads => complete = false ∧ Ends chunk.complete reads

lemma readU32BE_zero {bytes : Bytes} (h : 4 ≤ bytes.length) : readU32BE bytes 0 = .ok (prefixed bytes) := by
 rcases bytes with _|⟨b0,_|⟨b1,_|⟨b2,_|⟨b3,rest⟩⟩⟩⟩
 case cons.cons.cons.cons => rfl
 all_goals simp at h

variable {buffer more : Bytes}

lemma tryRead_eq : tryReadBufferedFrame maxFrameSize buffer = if buffer.length < 4 then .ok none
    else if prefixed buffer > maxFrameSize then throwRange "gossip stream frame exceeds max size"
    else if buffer.length < 4 + prefixed buffer then .ok none
    else .ok (some ((buffer.drop 4).take (prefixed buffer), buffer.drop (4 + prefixed buffer))) := by
 rw [tryReadBufferedFrame]
 split_ifs with hs hb hc
 · rfl
 · rw [readU32BE_zero (Nat.not_lt.mp hs),ok_bind,throwIf,if_pos hb]
   rfl
 · rw [readU32BE_zero (Nat.not_lt.mp hs),ok_bind,throwIf_neg hb,if_pos hc]
   rfl
 · rw [readU32BE_zero (Nat.not_lt.mp hs),ok_bind,throwIf_neg hb,ok_bind,if_neg hc,subarray,Nat.add_sub_cancel_left]
   rfl

lemma prefixed_append (h : 4 ≤ buffer.length) : prefixed (buffer ++ more) = prefixed buffer := by
 rw [prefixed,take_append_of_le_length h,prefixed]

lemma payloads_append (h : 4 ≤ buffer.length) : payloads maxFrameSize (buffer ++ more) =
    if prefixed buffer > maxFrameSize then [throwRange "gossip stream frame exceeds max size"]
    else if (buffer ++ more).length < 4 + prefixed buffer then [throwRange "incomplete gossip stream frame"]
    else .ok (some (((buffer ++ more).drop 4).take (prefixed buffer))) ::
      payloads maxFrameSize ((buffer ++ more).drop (4 + prefixed buffer)) := by
 have hl : ¬(buffer ++ more).length < 4 := by
  rw [length_append]
  omega
 have hne : buffer ++ more ≠ [] := fun hn=>hl (by rw [hn]; decide)
 rw [payloads,if_neg hne,if_neg hl,prefixed_append h]

/-- What the buffer settles, no later bytes change. -/
lemma payloads_of_error {thrown : Thrown} (h : tryReadBufferedFrame maxFrameSize buffer = .error thrown) :
    payloads maxFrameSize (buffer ++ more) = [.error thrown] := by
 rw [tryRead_eq] at h
 split_ifs at h with hs hb
 cases Except.error.inj h
 rw [payloads_append (Nat.not_lt.mp hs),if_pos hb]
 rfl

lemma payloads_of_frame {payload rest : Bytes}
    (h : tryReadBufferedFrame maxFrameSize buffer = .ok (some (payload, rest))) :
    payloads maxFrameSize (buffer ++ more) = .ok (some payload) :: payloads maxFrameSize (rest ++ more) := by
 rw [tryRead_eq] at h
 split_ifs at h with hs hb hc
 · cases h
 · cases h
 · cases h
 · cases h
   have hw : ¬(buffer ++ more).length < 4+prefixed buffer := by
    rw [length_append]
    omega
   have ht : prefixed buffer ≤ (buffer.drop 4).length := by
    rw [length_drop]
    omega
   rw [payloads_append (Nat.not_lt.mp hs),if_neg hb,if_neg hw,drop_append_of_le_length (Nat.not_lt.mp hs),
    take_append_of_le_length ht,drop_append_of_le_length (Nat.not_lt.mp hc)]

lemma payloads_of_none (h : tryReadBufferedFrame maxFrameSize buffer = .ok none) : payloads maxFrameSize buffer =
      [if buffer.length ≠ 0 then throwRange "incomplete gossip stream frame" else .ok none] := by
 rw [tryRead_eq] at h
 rw [payloads]
 by_cases hn : buffer = []
 · rw [hn]
   rfl
 · rw [if_pos (fun hz=>hn (length_eq_zero_iff.mp hz))]
   split_ifs at h ⊢
   · rfl
   · cases h
   · rfl
   · cases h

lemma readFrames_eq (calls : ℕ) {reads : List GossipStreamRead} {complete : Bool} (hr : Ends complete reads) :
    readFrames maxFrameSize calls ⟨reads, buffer, complete⟩ =
      (payloads maxFrameSize (buffer ++ reads.flatMap (·.data))).take calls := by
 induction calls generalizing reads buffer complete with
 | zero => rfl
 | succ calls ih =>
  rw [readFrames]
  fun_induction readFrame maxFrameSize reads buffer complete with
  | case1 reads buffer complete thrown ht => rw [payloads_of_error ht,take_succ_cons,take_nil]
  | case2 reads buffer complete payload rest ht =>
   rw [payloads_of_frame ht,take_succ_cons,← ih hr]
  | case3 reads buffer ht =>
   cases reads with
   | nil =>
    rw [flatMap_nil,append_nil,payloads_of_none ht,take_succ_cons,take_nil]
    split_ifs
    · rfl
    · rfl
   | cons => cases hr.1
  | case4 buffer complete ht hopen => exact absurd hr hopen
  | case5 buffer complete ht hopen chunk reads ihr =>
   rw [ihr hr.2,flatMap_cons,append_assoc]

/-- The frames that a reader returns are those of the whole stream, however it is cut into reads. -/
theorem frames_of_every_chunking (maxFrameSize : ℕ) {reads : List GossipStreamRead} (hreads : Ends false reads)
    (calls : ℕ) :
    readFrames maxFrameSize calls ⟨reads, [], false⟩ = (payloads maxFrameSize (reads.flatMap (·.data))).take calls :=
 readFrames_eq calls hreads

def fourReads : List GossipStreamRead :=
  [⟨[0, 0], false⟩, ⟨[], false⟩, ⟨[0, 1, 7, 0, 0, 0, 0], false⟩, ⟨[9], true⟩]

theorem frames_of_four_chunks : readFrames 16 3 ⟨fourReads, [], false⟩ =
        [.ok (some [7]), .ok (some []), throwRange "incomplete gossip stream frame"] ∧
      readFrames 16 3 ⟨fourReads, [], false⟩ = (payloads 16 [0, 0, 0, 1, 7, 0, 0, 0, 0, 9]).take 3 := by
 have hr : Ends false fourReads := ⟨rfl,rfl,rfl,rfl,rfl⟩
 exact ⟨by decide,frames_of_every_chunking 16 hr 3⟩

end

end GossipFrameReader

end Enlace.Gossip
