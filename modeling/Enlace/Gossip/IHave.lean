import Mathlib.Data.List.Chain
import Enlace.Gossip.Topic

set_option autoImplicit false

/-! How the announcements for a peer are divided into IHave messages. -/
namespace Enlace.Gossip.GossipTopicState
open ByteString List

lemma flatten_chunkIHave (maxMessageSize : ℕ) (chunk messages : List GossipIHaveEntry) :
    (chunkIHave maxMessageSize chunk messages).flatten = chunk ++ messages := by
 induction messages generalizing chunk with
 | nil =>
  rw [chunkIHave]
  split_ifs with h
  · rfl
  · rw [length_eq_zero_iff.mp (not_not.mp h)]
    rfl
 | cons msg messages ih =>
  rw [chunkIHave]
  split_ifs
  · rw [flatten_cons,ih]
    rfl
  · rw [ih,append_assoc]
    rfl

lemma length_postcardDigits_le {fuel value k : ℕ} (h : value < 0x80 ^ (k + 1)) :
    (postcardDigits fuel value).length ≤ k + 1 := by
 induction fuel generalizing value k with
 | zero => exact Nat.le_add_left ..
 | succ fuel ih =>
  rw [postcardDigits]
  split_ifs with hl
  · cases k with
    | zero => omega
    | succ k => exact Nat.succ_le_succ (ih (Nat.div_lt_of_lt_mul (by rwa [pow_succ,mul_comm] at h)))
  · exact Nat.le_add_left ..

variable {maxMessageSize : ℕ} {chunk messages : List GossipIHaveEntry}

/-- A chunk of one entry was never measured. Its round takes eight bytes at most. -/
lemma ihavePayloadSize_le (hmax : 512 ≤ maxMessageSize)
    (h : chunk.length ≤ 1 ∨ ihavePayloadSize chunk ≤ maxMessageSize)
    (hr : ∀ msg ∈ chunk, msg.round < 2 ^ 53) : ihavePayloadSize chunk ≤ maxMessageSize := by
 refine h.elim (fun ho=>?_) id
 rcases chunk with _|⟨msg,_|⟨_,_⟩⟩
 · exact le_trans (by decide) hmax
 · have hd : (encodePostcardLen msg.round).length ≤ 8 :=
    length_postcardDigits_le (lt_trans (hr _ (mem_singleton_self _)) (by decide))
   have hs : ihavePayloadSize [msg] = 35 + (encodePostcardLen msg.round).length := by
    simp [ihavePayloadSize,encodeGossipIHaveMessage,encodeGossipStreamFrame,encodeIHaveEntry,encodePostcardLen,
     postcardDigits]
    omega
   omega
 · exact absurd ho (by simp)

lemma chunkIHave_within (h : chunk.length ≤ 1 ∨ ihavePayloadSize chunk ≤ maxMessageSize) :
    ∀ c ∈ chunkIHave maxMessageSize chunk messages,
      c ≠ [] ∧ (c.length ≤ 1 ∨ ihavePayloadSize c ≤ maxMessageSize) := by
 induction messages generalizing chunk with
 | nil =>
  rw [chunkIHave]
  split_ifs with hne
  · exact forall_mem_singleton.mpr ⟨ne_nil_of_length_pos (Nat.pos_of_ne_zero hne),h⟩
  · exact forall_mem_nil _
 | cons msg messages ih =>
  rw [chunkIHave]
  split_ifs with hf
  · exact forall_mem_cons.mpr ⟨⟨ne_nil_of_length_pos (Nat.pos_of_ne_zero hf.1),h⟩,ih (.inl le_rfl)⟩
  · refine ih ?_
    rw [length_append,length_singleton]
    omega

/-- The entry that opens the next chunk is the one that did not fit. -/
lemma chunkIHave_isChain : (chunkIHave maxMessageSize chunk messages).IsChain (fun c next =>
      ∀ msg ∈ next.head?, maxMessageSize < ihavePayloadSize (c ++ [msg])) ∧
    (chunk ≠ [] → ∀ c ∈ (chunkIHave maxMessageSize chunk messages).head?, c.head? = chunk.head?) := by
 induction messages generalizing chunk with
 | nil =>
  rw [chunkIHave]
  split_ifs
  · exact ⟨.singleton _,fun _ _ hc=>by rw [Option.mem_some_iff.mp hc]⟩
  · exact ⟨.nil,by simp⟩
 | cons msg messages ih =>
  rw [chunkIHave]
  split_ifs with hf
  · refine ⟨ih.1.cons fun next hn entry he=>?_,fun _ _ hc=>by rw [Option.mem_some_iff.mp hc]⟩
    rw [ih.2 (cons_ne_nil _ _) next hn] at he
    cases he
    exact hf.2
  · refine ⟨ih.1,fun hne c hc=>?_⟩
    rw [ih.2 (by simp) c hc,head?_append_of_ne_nil _ hne]

theorem chunkIHaveMessages_greedy {s : GossipTopicState} (h : 512 ≤ s.maxMessageSize)
    (messages : List GossipIHaveEntry) :
    (s.chunkIHaveMessages messages).flatten = messages ∧
    (∀ chunk ∈ s.chunkIHaveMessages messages, chunk ≠ [] ∧
      ((∀ message ∈ chunk, message.round < 2 ^ 53) → ihavePayloadSize chunk ≤ s.maxMessageSize)) ∧
    (s.chunkIHaveMessages messages).IsChain fun chunk next =>
      ∀ message ∈ next.head?, s.maxMessageSize < ihavePayloadSize (chunk ++ [message]) := by
 refine ⟨flatten_chunkIHave ..,fun chunk hc=>?_,chunkIHave_isChain.1⟩
 obtain ⟨hne,hs⟩:=chunkIHave_within (.inl zero_le_one) chunk hc
 exact ⟨hne,ihavePayloadSize_le h hs⟩

/-- Sixteen entries of 33 bytes do not fit into 512. -/
theorem chunkIHaveMessages_two :
    let s := create (idOf 1) 5 512 30 (fun _ => 0) (some [])
    let chunks := s.chunkIHaveMessages (replicate 16 ⟨idOf 9, 3⟩)
    chunks.length = 2 ∧ chunks.flatten = replicate 16 ⟨idOf 9, 3⟩ ∧
      ∀ chunk ∈ chunks, (∀ message ∈ chunk, message.round < 2 ^ 53) → ihavePayloadSize chunk ≤ 512 :=
 have h := chunkIHaveMessages_greedy (s := create (idOf 1) 5 512 30 (fun _ => 0) (some [])) le_rfl
  (replicate 16 ⟨idOf 9,3⟩)
 ⟨by decide,h.1,fun chunk hchunk=>(h.2.1 chunk hchunk).2⟩

end Enlace.Gossip.GossipTopicState
