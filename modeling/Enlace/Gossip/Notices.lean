import Mathlib.Data.List.Chain
import Enlace.Gossip.NeighborEvents

set_option autoImplicit false

/-! What a topic tells about its neighbours. -/
namespace Enlace.Gossip
open ByteString Stateful Transition List OrderedSet


/-- Whether an event says that the peer became a neighbour or stopped being one. -/
def TopicOutEvent.notice (peer : PeerId) : TopicOutEvent → Option Bool
  | .emitEvent (.neighborUp other) => if other = peer then some true else none
  | .emitEvent (.neighborDown other) => if other = peer then some false else none
  | _ => none

open TopicOutEvent

variable {out : List TopicOutEvent}

lemma Plain.notices (h : Plain out) (peer : PeerId) : out.filterMap (notice peer) = [] := by
 refine filterMap_eq_nil_iff.mpr fun event hevent=>?_
 cases event with
 | emitEvent event =>
  cases event with
  | neighborUp | neighborDown => exact (h _ hevent).elim
  | received => rfl
 | sendMessage | scheduleTimer | disconnectPeer | peerData => rfl

namespace GossipTopicState

lemma Farewell.notices {peer : PeerId} (h : Farewell peer out) (other : PeerId) :
    out.filterMap (notice other) = [] := by
 refine filterMap_eq_nil_iff.mpr fun event hevent=>?_
 cases event with
 | emitEvent event => exact absurd hevent h.not_emits
 | sendMessage | scheduleTimer | disconnectPeer | peerData => rfl

/-- One event tells of a peer at most once, and what it tells is what has changed. -/
lemma Turn.notices {event : TopicInEvent} {ns after : List PeerId} (h : Turn event ns out after)
    (hq : event ≠ .command .quit) (peer : PeerId) :
    out.filterMap (notice peer) = if (peer ∈ after ↔ peer ∈ ns) then [] else [decide (peer ∈ after)] := by
 cases h with
 | plain hou => rw [hou.notices,if_pos Iff.rfl]
 | refused _ _ hdata hgoodbye hrest _ =>
  rw [filterMap_append,filterMap_append,hdata.notices,hgoodbye.notices,hrest.notices,if_pos Iff.rfl]
  rfl
 | @admitted other _ _ _ _ ho hdata ha =>
  rw [filterMap_append,hdata.notices,filterMap_cons,ha.notices,notice]
  by_cases heq : other = peer
  · subst heq
    simp [mem_add,ho]
  · simp [mem_add,heq,Ne.symm heq]
 | @replaced other evicted _ _ _ _ _ ho he hdata hgoodbye ha _ =>
  have hne : evicted ≠ other := fun heq=>ho (heq ▸ he)
  rw [filterMap_append,filterMap_append,hdata.notices,filterMap_cons,filterMap_cons,hgoodbye.notices,ha.notices,
   notice,notice]
  by_cases heq : other = peer
  · subst heq
    simp [mem_add,ho,hne]
  · by_cases hg : evicted = peer
    · subst hg
      simp [mem_add,mem_delete,he,heq,hne]
    · simp [mem_add,mem_delete,heq,hg,Ne.symm heq,Ne.symm hg]
 | @removed other _ _ _ ho hgoodbye hrest _ =>
  rw [filterMap_append,filterMap_cons,hgoodbye.notices,hrest.notices,notice]
  by_cases heq : other = peer
  · subst heq
    simp [mem_delete,ho]
  · simp [mem_delete,heq,Ne.symm heq]
 | expired _ _ hrest _ =>
  rw [filterMap_cons,hrest.notices,if_pos Iff.rfl]
  rfl
 | quit hevent => exact absurd hevent hq

end GossipTopicState

/-- The values alternate from true on, and the last is true just if the fact holds. -/
structure Alternating (fact : Prop) (notices : List Bool) : Prop where
  first : notices.head? ≠ some false
  chain : notices.IsChain (· ≠ ·)
  last : fact ↔ notices.getLast? = some true

lemma Alternating.snoc {fact now : Prop} [Decidable now] {notices : List Bool} (h : Alternating fact notices)
    (hc : ¬(now ↔ fact)) : Alternating now (notices ++ [decide now]) := by
 rw [h.last] at hc
 refine ⟨fun hf=>?_,h.chain.append (.singleton _) fun last hl this ht=>?_,?_⟩
 · cases notices with
   | nil => exact hc (iff_of_false (of_decide_eq_false (Option.some.inj hf)) fun h=>by cases h)
   | cons => exact h.first hf
 · rw [Option.mem_def.mp hl] at hc
   rw [← Option.some.inj ht]
   rintro rfl
   exact hc ⟨fun hn=>congrArg some (decide_eq_true hn),fun h=>of_decide_eq_true (Option.some.inj h)⟩
 · rw [getLast?_concat,Option.some_inj,decide_eq_true_eq]

/-- A topic with all that it has put out. -/
structure NeighborLog where
  state : GossipTopicState
  out : List TopicOutEvent

namespace NeighborLog
open GossipTopicState

def notices (l : NeighborLog) (peer : PeerId) : List Bool := l.out.filterMap (notice peer)

section
variable (blake3 : Bytes → MessageId)

def step (l : NeighborLog) (event : TopicInEvent × ℕ) : Option NeighborLog :=
  some ⟨(handle blake3 event.1 event.2 l.state).2, l.out ++ (handle blake3 event.1 event.2 l.state).1⟩

/-- In every history without a quit the events about a peer alternate, and the last tells whether it is a neighbour. -/
theorem neighbor_events_alternate (me : PeerId) (active maxMessageSize passive : ℕ) (random : Stream' ℕ)
    (peerData : Option Bytes) {events : List (TopicInEvent × ℕ)} (hquit : ∀ event ∈ events, event.1 ≠ .command .quit)
    {l : NeighborLog}
    (hruns : Runs (step blake3) ⟨create me active maxMessageSize passive random peerData, []⟩ events l)
    (peer : PeerId) : Alternating (peer ∈ l.state.neighbors) (l.notices peer) := by
 have hg:=hruns.guarded_of_mem fun event hevent _=>hquit event hevent
 refine (hg.invariant (fun l=>l.state.Apart ∧ Alternating (peer ∈ l.state.neighbors) (l.notices peer)) ?_ ?_).2
 · refine ⟨nofun,⟨fun h=>?_,.nil,?_⟩⟩
   · cases h
   · exact iff_of_false not_mem_nil fun h=>by cases h
 · rintro l event next ⟨ha,hl⟩ hevent hn
   cases hn
   refine ⟨handle_apart blake3 event.1 event.2 _ ha,?_⟩
   rw [notices,filterMap_append,(handle_turn blake3 ha event.1 event.2).notices hevent peer]
   split_ifs with hs
   · rw [append_nil]
     exact ⟨hl.first,hl.chain,hs.trans hl.last⟩
   · exact hl.snoc hs

end

def twoTakeTurns : List (TopicInEvent × ℕ) :=
  [(.recvMessage (idOf 2) (.join none), 0), (.recvMessage (idOf 3) (.join none), 1),
    (.recvMessage (idOf 2) (.join none), 2)]

theorem two_peers_alternate :
    ∃ l, Runs (step fun _ => idOf 0) ⟨create (idOf 1) 1 4096 1 (fun _ => 0) none, []⟩ twoTakeTurns l ∧
      l.notices (idOf 2) = [true, false, true] ∧
      Alternating (idOf 2 ∈ l.state.neighbors) (l.notices (idOf 2)) := by
 refine exists_and₂ (by decide +kernel) fun l hr _=>?_
 exact neighbor_events_alternate _ _ _ _ _ _ _ (by decide) hr (idOf 2)

end NeighborLog

end Enlace.Gossip
