import Enlace.SlotRead
import Enlace.Iroh.Topic

set_option autoImplicit false

/-! What a topic holds back while it has no neighbours. -/
namespace Enlace.Iroh
open ByteString SlotRead Transition List

def maxPendingBroadcasts : ℕ := 64

def queueIsFull : TransportError := .network "iroh pending broadcast queue is full"

structure NeighborState (ι : Type) where
  neighbors : Finset ι
  pendingBroadcasts : List Bytes

variable {ι : Type} [DecidableEq ι]

namespace NeighborState

def new (neighbors : Finset ι) : NeighborState ι := ⟨neighbors, []⟩

def markUp (peer : ι) (s : NeighborState ι) : List Bytes × NeighborState ι :=
  if s.neighbors = ∅ then (s.pendingBroadcasts, ⟨insert peer s.neighbors, []⟩)
  else ([], { s with neighbors := insert peer s.neighbors })

def markDown (peer : ι) (s : NeighborState ι) : NeighborState ι := { s with neighbors := s.neighbors.erase peer }

def queueOrSend (message : Bytes) (s : NeighborState ι) : Except TransportError (Option Bytes) × NeighborState ι :=
  if s.neighbors ≠ ∅ then (.ok (some message), s)
  else if maxPendingBroadcasts ≤ s.pendingBroadcasts.length then (.error queueIsFull, s)
  else (.ok none, { s with pendingBroadcasts := s.pendingBroadcasts ++ [message] })

def Full (s : NeighborState ι) : Prop := s.neighbors = ∅ ∧ maxPendingBroadcasts ≤ s.pendingBroadcasts.length

lemma queueOrSend_of_full {s : NeighborState ι} (h : s.Full) (msg : Bytes) :
    s.queueOrSend msg = (.error queueIsFull, s) := by
 rw [queueOrSend,if_neg (not_not_intro h.1),if_pos h.2]

end NeighborState

inductive NeighborCall (ι : Type) where
  | markUp (peer : ι)
  | markDown (peer : ι)
  | queueOrSend (message : Bytes)

/-- The messages accepted and those handed out, each with whether it was to be handed out at once. -/
structure Broadcasts (ι : Type) where
  state : NeighborState ι
  accepted : List (Bool × Bytes)
  handedOut : List (Bool × Bytes)

namespace Broadcasts

def start (neighbors : Finset ι) : Broadcasts ι := ⟨.new neighbors, [], []⟩

def step (b : Broadcasts ι) : NeighborCall ι → Broadcasts ι
  | .markUp peer =>
    ⟨(b.state.markUp peer).2, b.accepted, b.handedOut ++ (b.state.markUp peer).1.map (false, ·)⟩
  | .markDown peer => { b with state := b.state.markDown peer }
  | .queueOrSend message =>
    match b.state.queueOrSend message with
    | (.ok (some sent), state) => ⟨state, b.accepted ++ [(true, message)], b.handedOut ++ [(true, sent)]⟩
    | (.ok none, state) => ⟨state, b.accepted ++ [(false, message)], b.handedOut⟩
    | (.error _, state) => { b with state := state }

structure Accounted (b : Broadcasts ι) : Prop where
  drained : b.state.neighbors ≠ ∅ → b.state.pendingBroadcasts = []
  bounded : b.state.pendingBroadcasts.length ≤ maxPendingBroadcasts
  inOrder : b.accepted = b.handedOut ++ b.state.pendingBroadcasts.map (false, ·)

variable {b : Broadcasts ι}

lemma Accounted.markUp (h : b.Accounted) (peer : ι) :
    (b.step (.markUp peer)).Accounted ∧ (b.step (.markUp peer)).handedOut = (b.step (.markUp peer)).accepted := by
 simp only [step,NeighborState.markUp]
 by_cases he : b.state.neighbors = ∅
 · rw [if_pos he]
   refine ⟨⟨fun _=>rfl,Nat.zero_le _,?_⟩,h.inOrder.symm⟩
   rw [h.inOrder,map_nil,append_nil]
 · rw [if_neg he]
   have hn:=h.drained he
   refine ⟨⟨fun _=>hn,h.bounded,?_⟩,?_⟩
   · simpa using h.inOrder
   · simpa [hn] using h.inOrder.symm

lemma Accounted.queueOrSend (h : b.Accounted) (msg : Bytes) : (b.step (.queueOrSend msg)).Accounted := by
 simp only [step,NeighborState.queueOrSend]
 by_cases he : b.state.neighbors = ∅
 · rw [if_neg (not_not_intro he)]
   by_cases hf : maxPendingBroadcasts ≤ b.state.pendingBroadcasts.length
   · rw [if_pos hf]
     exact h
   · rw [if_neg hf]
     refine ⟨fun hne=>absurd he hne,?_,?_⟩
     · rw [length_append,length_singleton]
       omega
     · simp [h.inOrder]
 · rw [if_pos he]
   refine ⟨h.drained,h.bounded,?_⟩
   simp [h.inOrder,h.drained he]

lemma Accounted.step (h : b.Accounted) (call : NeighborCall ι) : (b.step call).Accounted := by
 cases call with
 | markUp peer => exact (h.markUp peer).1
 | markDown peer =>
  refine ⟨fun hne=>h.drained fun he=>hne ?_,h.bounded,h.inOrder⟩
  rw [Broadcasts.step,NeighborState.markDown,he,Finset.erase_empty]
 | queueOrSend msg => exact h.queueOrSend msg

lemma accounted_foldl (h : b.Accounted) (calls : List (NeighborCall ι)) :
    (calls.foldl Broadcasts.step b).Accounted := by
 induction calls generalizing b with
 | nil => exact h
 | cons call calls ih => exact ih (h.step call)

/-- Messages wait only while there are no neighbours. They leave in the order in which they were accepted, each once and
as announced, and none waits after a neighbour has come up. -/
theorem broadcasts_accounted (neighbors : Finset ι) (calls : List (NeighborCall ι)) :
    (calls.foldl step (start neighbors)).Accounted ∧
    ∀ peer, ((calls ++ [NeighborCall.markUp peer]).foldl step (start neighbors)).handedOut =
      (calls.foldl step (start neighbors)).accepted := by
 have hs : (start neighbors).Accounted := ⟨fun _=>rfl,Nat.zero_le _,rfl⟩
 have h:=accounted_foldl hs calls
 refine ⟨h,fun peer=>?_⟩
 rw [foldl_concat]
 exact (h.markUp peer).2

end Broadcasts

def encodeSlotFrame (version : UInt64) (sealed : Bytes) : Bytes := beBytes 8 version.toNat ++ sealed

/-- `slotUpdates` has all that was sent to the watches. -/
structure TopicState (ι : Type) where
  slot : Option (UInt64 × Bytes)
  slotUpdates : List (UInt64 × Bytes)
  neighborState : NeighborState ι

namespace TopicState

def recordSlot (version : UInt64) (sealed : Bytes) (t : TopicState ι) : TopicState ι :=
  if t.slot.any fun current => decide (toLex (version, sealed) ≤ toLex current) then t
  else { t with slot := some (version, sealed), slotUpdates := t.slotUpdates ++ [(version, sealed)] }

def ofTopic {κ : Type} (neighborState : NeighborState ι) (s : Topic.Sys κ) : TopicState ι :=
  ⟨s.slot, s.slotUpdates, neighborState⟩

omit [DecidableEq ι] in
/-- `recordSlot` is a call of `record_slot` between whose steps nothing else happens. -/
theorem recordSlot_ofTopic {κ : Type} [DecidableEq κ] {s : Topic.Sys κ} {i : κ} (h : s.recorders i = none)
    (neighborState : NeighborState ι) (version : UInt64) (sealed : Bytes) :
    ∃ rest u, rest ⊆ [.sendUpdate i] ∧ Runs Topic.step s (.recordSlot i version sealed :: rest) u ∧
      u.recorders = s.recorders ∧ ofTopic neighborState u = (ofTopic neighborState s).recordSlot version sealed := by
 by_cases hc : s.slot.any fun current=>decide (toLex (version,sealed) ≤ toLex current)
 · refine ⟨[],s,nil_subset _,runs_of_exec ?_,rfl,(if_pos hc).symm⟩
   simp [exec,Topic.step,Topic.Sys.recordSlot,h,hc]
 · refine ⟨[.sendUpdate i],(s.store i (version,sealed)).announce i (version,sealed),Subset.refl _,runs_of_exec ?_,?_,
    (if_neg hc).symm⟩
   · simp [exec,Topic.step,Topic.Sys.recordSlot,Topic.Sys.sendUpdate,Topic.Sys.store,h,hc]
   · rw [Topic.Sys.announce_recorders,Topic.Sys.store_recorders,Function.update_idem,← h,Function.update_eq_self]

/-- `broadcast` is what the gossip sender answers. -/
def broadcastOrBuffer (broadcast : Bytes → Except TransportError Unit) (message : Bytes) (t : TopicState ι) :
    Except TransportError Unit × TopicState ι :=
  let (queued, state) := t.neighborState.queueOrSend message
  let result := do
    match ← queued with
    | some message => broadcast message
    | none => return ()
  (result, { t with neighborState := state })

/-- `IrohTransport::put` on a topic that it has subscribed to. -/
def put (broadcast : Bytes → Except TransportError Unit) (version : UInt64) (sealed : Bytes) (t : TopicState ι) :
    Except TransportError Unit × TopicState ι :=
  (t.recordSlot version sealed).broadcastOrBuffer broadcast (encodeSlotFrame version sealed)

variable {t : TopicState ι}

omit [DecidableEq ι] in
lemma neighborState_recordSlot (version : UInt64) (sealed : Bytes) (t : TopicState ι) :
    (t.recordSlot version sealed).neighborState = t.neighborState := by
 rw [recordSlot]
 split
 · rfl
 · rfl

lemma put_of_full (h : t.neighborState.Full) (broadcast : Bytes → Except TransportError Unit) (version : UInt64)
    (sealed : Bytes) : t.put broadcast version sealed = (.error queueIsFull, t.recordSlot version sealed) := by
 have hs:=neighborState_recordSlot version sealed t
 rw [put,broadcastOrBuffer,hs,NeighborState.queueOrSend_of_full h,← hs]
 rfl

omit [DecidableEq ι] in
lemma recordSlot_eq_iff {version : UInt64} {sealed : Bytes} : t.recordSlot version sealed = t ↔
    ∃ current, t.slot = some current ∧ toLex (version, sealed) ≤ toLex current := by
 rw [recordSlot]
 split
 · rename_i hn
   simpa [Option.any_eq_true] using hn
 · rename_i holder
   refine iff_of_false (fun heq=>?_) fun hn=>holder (by simpa [Option.any_eq_true] using hn)
   exact absurd (congrArg (fun u=>u.slotUpdates.length) heq) (by simp)

/-- A put that fails on a full queue has changed nothing exactly if the slot was not older. -/
theorem failed_put_unchanged_iff (broadcast : Bytes → Except TransportError Unit) (version : UInt64)
    (sealed : Bytes) (t : TopicState ι) :
    (t.neighborState.Full → t.put broadcast version sealed = (.error queueIsFull, t)) ↔
      (t.neighborState.Full → ∃ current, t.slot = some current ∧ toLex (version, sealed) ≤ toLex current) := by
 refine forall_congr' fun hf=>?_
 rw [put_of_full hf,Prod.mk.injEq,recordSlot_eq_iff]
 exact and_iff_right rfl

/-- A put that fails on a full queue replaces and announces the slot. -/
theorem failed_put_is_announced :
    let t : TopicState ℕ := ⟨none,[],∅,replicate 64 []⟩
    t.neighborState.Full ∧ ∀ broadcast, t.put broadcast 1 [7] =
      (.error queueIsFull,{ t with slot := some (1,[7]),slotUpdates := [(1,[7])] }) := by
 intro t
 have hf : t.neighborState.Full := ⟨rfl,le_of_eq (length_replicate ..).symm⟩
 exact ⟨hf,fun broadcast=>put_of_full hf broadcast 1 [7]⟩

end TopicState

end Enlace.Iroh
