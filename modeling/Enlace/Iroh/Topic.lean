import Enlace.Lib.Fifo
import Enlace.Lib.ByteString
import Enlace.Lib.Transition

set_option autoImplicit false

/-! The slot of a gossip topic, the calls of `record_slot` on it and the task of one watch. Every
`await`, and every statement that touches what they share, is a step of its own. -/
namespace Enlace.Iroh.Topic
open ByteString Transition List Option Function Broadcast

def watchBuffer : ℕ := 64

inductive Pc where
  | readSlot
  | sendSlot (x : UInt64 × Bytes)
  | subscribe
  | recv (next : ℕ)
  | sendUpdate (x : UInt64 × Bytes) (next : ℕ)
  | stopped
  deriving DecidableEq

/-- A recorder is a call of `record_slot`; it holds the pair that it has stored and not sent yet. -/
structure Sys (ι : Type) where
  slot : Option (UInt64 × Bytes)
  recorders : ι → Option (UInt64 × Bytes)
  slotUpdates : List (UInt64 × Bytes)
  watch : Pc
  since : UInt64
  channel : List (UInt64 × Bytes)
  receiving : Bool
  taken : List (UInt64 × Bytes)

inductive Act (ι : Type) where
  | recordSlot (i : ι) (version : UInt64) (sealed : Bytes)
  | sendUpdate (i : ι)
  | watch
  | take
  | close

variable {ι : Type}

def init (since : UInt64) : Sys ι := ⟨none, fun _ => none, [], .readSlot, since, [], true, []⟩

namespace Sys

variable (s : Sys ι)

section Recorders

variable [DecidableEq ι]

def store (i : ι) (x : UInt64 × Bytes) : Sys ι :=
  { s with slot := some x, recorders := Function.update s.recorders i (some x) }

def announce (i : ι) (x : UInt64 × Bytes) : Sys ι :=
  { s with
    recorders := Function.update s.recorders i none
    slotUpdates := s.slotUpdates ++ [x] }

lemma store_recorders (i : ι) (x : UInt64 × Bytes) : (s.store i x).recorders = update s.recorders i (some x) := rfl

lemma announce_recorders (i : ι) (x : UInt64 × Bytes) : (s.announce i x).recorders = update s.recorders i none := rfl

lemma announce_slotUpdates (i : ι) (x : UInt64 × Bytes) : (s.announce i x).slotUpdates = s.slotUpdates ++ [x] := rfl

/-- `record_slot` up to the release of its lock; `sendUpdate` is the rest of the call. -/
def recordSlot (i : ι) (version : UInt64) (sealed : Bytes) : Option (Sys ι) :=
  if s.recorders i ≠ none then none
  else if s.slot.any fun current => decide (toLex (version, sealed) ≤ toLex current) then some s
  else some (s.store i (version, sealed))

def sendUpdate (i : ι) : Option (Sys ι) := (s.recorders i).map (s.announce i)

end Recorders

/-- `tx.send(..).await`: it waits for room, and stops the task when the stream has been dropped. -/
def sendItem (x : UInt64 × Bytes) (next : Pc) : Option (Sys ι) :=
  if s.receiving = false then some { s with watch := .stopped }
  else if s.channel.length < watchBuffer then
    some { s with channel := s.channel ++ [x], watch := next }
  else none

def readSlot : Sys ι :=
  match s.slot.filter fun x => decide (s.since < x.1) with
  | some x => { s with since := x.1, watch := .sendSlot x }
  | none => { s with watch := .subscribe }

def runWatch : Option (Sys ι) :=
  match s.watch with
  | .readSlot => some s.readSlot
  | .sendSlot x => s.sendItem x .subscribe
  -- A new receiver gets only what is sent from here on.
  | .subscribe => some { s with watch := .recv s.slotUpdates.length }
  | .recv next =>
    -- The channel does not close, since the task itself holds the topic.
    match Broadcast.recv watchBuffer s.slotUpdates next with
    | .empty => none
    | .lagged next => some { s with watch := .recv next }
    | .value x next =>
      if s.since < x.1 then some { s with since := x.1, watch := .sendUpdate x next }
      else some { s with watch := .recv next }
  | .sendUpdate x next => s.sendItem x (.recv next)
  | .stopped => none

def take : Option (Sys ι) :=
  match s.receiving, s.channel with
  | true, x :: rest => some { s with channel := rest, taken := s.taken ++ [x] }
  | _, _ => none

def delivered : List (UInt64 × Bytes) := s.taken ++ s.channel

/-- What the task delivers or delivered last. -/
def latest : Option (UInt64 × Bytes) :=
  match s.watch with
  | .sendSlot x => some x
  | .sendUpdate x _ => some x
  | _ => s.delivered.getLast?

/-- The update that the task receives next. -/
def incoming : Option (UInt64 × Bytes) :=
  match s.watch with
  | .recv next => match Broadcast.recv watchBuffer s.slotUpdates next with
    | .value x _ => some x
    | _ => none
  | _ => none

def Settled : Prop := (∀ i, s.recorders i = none) ∧ s.watch = .recv s.slotUpdates.length

instance decidableSettled [Fintype ι] : Decidable s.Settled := inferInstanceAs (Decidable (_ ∧ _))

end Sys

def step [DecidableEq ι] (s : Sys ι) : Act ι → Option (Sys ι)
  | .recordSlot i version sealed => s.recordSlot i version sealed
  | .sendUpdate i => s.sendUpdate i
  | .watch => s.runWatch
  | .take => s.take
  | .close => some { s with receiving := false }

def Pc.subscribing : Pc → Bool
  | .sendSlot _ => true
  | .subscribe => true
  | _ => false

def Pc.updates : Pc → Option ℕ
  | .recv next => some next
  | .sendUpdate _ next => some next
  | _ => none

/-- No call replaces the body of the pair that the watch delivered last, and the watch receives no body of the current
version that has been replaced; and the current pair, if it is above what the watch delivered, is not sent between its
read and its subscription, nor overwritten before it is received. -/
def Orderly (s : Sys ι) : Act ι → Prop
  | .recordSlot _ version sealed => ∀ x ∈ s.latest, s.slot = some x → x.1 = version → sealed ≤ x.2
  | .sendUpdate i =>
    (s.watch.subscribing = true → ∀ x ∈ s.recorders i, s.slot = some x → x.1 ≤ s.since) ∧
    ∀ next ∈ s.watch.updates, ∀ current ∈ s.slot,
      Broadcast.Overwrites watchBuffer s.slotUpdates next current → current.1 ≤ s.since
  | .watch => ∀ x ∈ s.incoming, s.since < x.1 → ∀ current ∈ s.slot, current.1 = x.1 → current = x
  | _ => True

instance decidableOrderly (s : Sys ι) (a : Act ι) : Decidable (Orderly s a) :=
  match a with
  | .recordSlot _ version sealed => inferInstanceAs (Decidable
      (∀ x ∈ s.latest, s.slot = some x → x.1 = version → sealed ≤ x.2))
  | .sendUpdate .. => inferInstanceAs (Decidable (_ ∧ _))
  | .watch => inferInstanceAs (Decidable (∀ x ∈ s.incoming, _ → ∀ current ∈ s.slot, current.1 = x.1 → _ = _))
  | .take => isTrue trivial
  | .close => isTrue trivial

open Sys

namespace Sys

def Recorded (s : Sys ι) (x : UInt64 × Bytes) : Prop :=
  (∃ i, s.recorders i = some x) ∨ x ∈ s.slotUpdates

def Behind (s : Sys ι) (x : UInt64 × Bytes) : Prop :=
  ∃ current, s.slot = some current ∧ (x.1 < current.1 ∨ x = current)

/-- Of the task after its read of the slot, `since₀` being what it started with: the current pair is still to come to
it, or what it holds or delivered last is of the version `since`. -/
structure Running (since₀ : UInt64) (s : Sys ι) : Prop where
  le_since : since₀ ≤ s.since
  updates_le : ∀ next, s.watch.updates = some next → next ≤ s.slotUpdates.length
  awaited : ∀ current, s.slot = some current → s.since < current.1 → (∃ i, s.recorders i = some current) ∨
    ∃ next, s.watch.updates = some next ∧ Broadcast.Awaits watchBuffer s.slotUpdates next current
  latest : since₀ < s.since → ∃ x, s.latest = some x ∧ x.1 = s.since ∧ s.Behind x

structure Inv (since₀ : UInt64) (s : Sys ι) : Prop where
  recorded : ∀ x, s.Recorded x → ∃ current, s.slot = some current ∧ x.1 ≤ current.1
  unread : s.watch = .readSlot → s.since = since₀
  running : s.watch ≠ .readSlot → s.watch ≠ .stopped → s.Running since₀

variable {since₀ : UInt64} {s u : Sys ι}

section Recorders

variable [DecidableEq ι]

variable {i : ι}

lemma recordSlot_cases {version : UInt64} {sealed : Bytes} (h : s.recordSlot i version sealed = some u) :
    u = s ∨ (∀ current, s.slot = some current → toLex current < toLex (version, sealed)) ∧
      u = s.store i (version, sealed) := by
 unfold recordSlot at h
 split at h
 · cases h
 · split at h
   · exact .inl (some.inj h).symm
   · rename_i hn
     refine .inr ⟨?_,(some.inj h).symm⟩
     intro current hs
     simpa [hs] using hn

lemma recorded_of_store {x y : UInt64 × Bytes} (h : (s.store i x).Recorded y) : y = x ∨ s.Recorded y := by
 rcases h with ⟨j,hj⟩|hs
 · rw [store_recorders] at hj
   by_cases hij : j = i
   · subst hij
     rw [update_self] at hj
     exact .inl (some.inj hj).symm
   · rw [update_of_ne hij] at hj
     exact .inr (.inl ⟨j,hj⟩)
 · exact .inr (.inr hs)

lemma Running.store {x : UInt64 × Bytes} (h : s.Running since₀) (i : ι)
    (ha : ∀ current, s.slot = some current → toLex current < toLex x)
    (hok : ∀ y ∈ s.latest, s.slot = some y → y.1 = x.1 → x.2 ≤ y.2) : (s.store i x).Running since₀ := by
 refine ⟨h.le_since,h.updates_le,?_,?_⟩
 · intro current hs _
   cases hs
   exact .inl ⟨i,update_self ..⟩
 · intro hsi
   obtain ⟨y,hl,hv,current,hs,hc⟩:=h.latest hsi
   refine ⟨y,hl,hv,x,rfl,.inl ?_⟩
   rcases Prod.Lex.lt_iff.mp (ha current hs), hc with ⟨hlt|⟨heq,hlt⟩,hy|rfl⟩
   · exact hy.trans hlt
   · exact hlt
   · exact hy.trans_eq heq
   · exact absurd hlt (not_lt.mpr (hok y hl hs heq))

lemma Inv.recordSlot {version : UInt64} {sealed : Bytes} (h : s.Inv since₀)
    (hok : Orderly s (.recordSlot i version sealed)) (hu : s.recordSlot i version sealed = some u) :
    u.Inv since₀ := by
 rcases recordSlot_cases hu with rfl|⟨hn,rfl⟩
 · exact h
 · refine ⟨?_,h.unread,?_⟩
   · intro x hx
     refine ⟨(version,sealed),rfl,?_⟩
     rcases recorded_of_store hx with rfl|hx
     · exact le_refl _
     · obtain ⟨current,hs,hle⟩:=h.recorded x hx
       have hl:=Prod.Lex.lt_iff.mp (hn current hs)
       rcases hl with hlt|⟨heq,_⟩
       · exact hle.trans hlt.le
       · exact hle.trans heq.le
   · intro hr hst
     exact (h.running hr hst).store i hn hok

lemma recorded_of_announce {x y : UInt64 × Bytes} (hi : s.recorders i = some x)
    (h : (s.announce i x).Recorded y) : s.Recorded y := by
 rcases h with ⟨j,hj⟩|hs
 · rw [announce_recorders] at hj
   by_cases hij : j = i
   · subst hij
     rw [update_self] at hj
     cases hj
   · rw [update_of_ne hij] at hj
     exact .inl ⟨j,hj⟩
 · rcases mem_append.mp hs with hs|hs
   · exact .inr hs
   · rw [mem_singleton.mp hs]
     exact .inl ⟨i,hi⟩

lemma watchBuffer_pos : 0 < watchBuffer := by decide

lemma Running.announce {x : UInt64 × Bytes} (h : s.Running since₀)
    (hi : s.recorders i = some x) (hok : Orderly s (.sendUpdate i))
    (hsu : s.watch.subscribing = true ∨ ∃ next, s.watch.updates = some next) : (s.announce i x).Running since₀ := by
 refine ⟨h.le_since,?_,?_,h.latest⟩
 · intro next hn
   have hle:=h.updates_le next hn
   rw [announce_slotUpdates,length_append]
   omega
 · intro current hsl hs
   -- The current pair was pending, here or in another call, or already on its way to the watch.
   rcases h.awaited current hsl hs with ⟨j,hj⟩|⟨next,hn,ha⟩
   · by_cases hij : j = i
     · subst hij
       obtain rfl:=some.inj (hi.symm.trans hj)
       rcases hsu with hsu|⟨next,hn⟩
       · exact absurd hs (not_lt.mpr (hok.1 hsu x hi hsl))
       · exact .inr ⟨next,hn,awaits_concat watchBuffer_pos (h.updates_le next hn)⟩
     · exact .inl ⟨j,(update_of_ne hij ..).trans hj⟩
   · have hk : ¬ Broadcast.Overwrites watchBuffer s.slotUpdates next current := by
      intro ho
      exact absurd hs (not_lt.mpr (hok.2 next hn current hsl ho))
     exact .inr ⟨next,hn,ha.concat hk x⟩

lemma subscribing_or_updates {pc : Pc} (hr : pc ≠ .readSlot) (hs : pc ≠ .stopped) :
    pc.subscribing = true ∨ ∃ next, pc.updates = some next := by
 cases pc with
 | readSlot => exact absurd rfl hr
 | sendSlot x | subscribe => exact .inl rfl
 | recv next | sendUpdate x next => exact .inr ⟨next,rfl⟩
 | stopped => exact absurd rfl hs

lemma Inv.sendUpdate (h : s.Inv since₀) (hok : Orderly s (.sendUpdate i))
    (hu : s.sendUpdate i = some u) : u.Inv since₀ := by
 obtain ⟨x,hi,rfl⟩:=map_eq_some_iff.mp hu
 refine ⟨?_,h.unread,?_⟩
 · intro y hy
   exact h.recorded y (recorded_of_announce hi hy)
 · intro hr hs
   exact (h.running hr hs).announce hi hok (subscribing_or_updates hr hs)

end Recorders

lemma Inv.of_running (h : s.Inv since₀) (hs : u.slot = s.slot) (hr : u.recorders = s.recorders)
    (hu : u.slotUpdates = s.slotUpdates) (hre : u.watch ≠ .readSlot)
    (hru : u.watch ≠ .stopped → u.Running since₀) : u.Inv since₀ := by
 refine ⟨?_,fun hw=>absurd hw hre,fun _=>hru⟩
 intro x hx
 rw [hs]
 rw [Recorded,hr,hu] at hx
 exact h.recorded x hx

lemma Inv.readSlot (h : s.Inv since₀) (hw : s.watch = .readSlot) : s.readSlot.Inv since₀ := by
 have hs:=h.unread hw
 unfold Sys.readSlot
 split
 · rename_i x hr
   obtain ⟨hsl,ha⟩:=filter_eq_some_iff.mp hr
   refine h.of_running rfl rfl rfl Pc.noConfusion fun _=>⟨?_,nofun,?_,?_⟩
   · exact hs ▸ (of_decide_eq_true ha).le
   · intro current hc hlt
     obtain rfl:=some.inj (hsl.symm.trans hc)
     exact absurd hlt (lt_irrefl _)
   · intro _
     exact ⟨x,rfl,rfl,x,hsl,.inr rfl⟩
 · rename_i hr
   have hb : ∀ current, s.slot = some current → ¬ s.since < current.1 := by
    intro current hc hlt
    exact filter_eq_none_iff.mp hr current hc (decide_eq_true hlt)
   refine h.of_running rfl rfl rfl Pc.noConfusion fun _=>⟨hs.ge,nofun,?_,?_⟩
   · intro current hc hlt
     exact absurd hlt (hb current hc)
   · intro ha
     exact absurd ha (not_lt.mpr hs.le)

variable {x : UInt64 × Bytes}

lemma Inv.sendItem {next : Pc} (h : s.Inv since₀) (hr : s.Running since₀)
    (hl : s.latest = some x) (hup : next.updates = s.watch.updates)
    (hn : next = .subscribe ∨ ∃ k, next = .recv k) (hu : s.sendItem x next = some u) : u.Inv since₀ := by
 unfold Sys.sendItem at hu
 split at hu
 · cases hu
   exact h.of_running rfl rfl rfl Pc.noConfusion fun hst=>absurd rfl hst
 · split at hu
   · cases hu
     have hre : next ≠ .readSlot := by
      rcases hn with rfl|⟨k,rfl⟩ <;> exact Pc.noConfusion
     have hse : latest { s with channel := s.channel ++ [x],watch := next } = s.latest := by
      have hla : (s.taken ++ (s.channel ++ [x])).getLast? = some x := by
       rw [← append_assoc,getLast?_concat]
      rw [hl]
      rcases hn with rfl|⟨k,rfl⟩ <;> exact hla
     refine h.of_running rfl rfl rfl hre fun _=>⟨hr.le_since,?_,?_,?_⟩
     · intro k hk
       exact hr.updates_le k (hup ▸ hk)
     · intro current hsl hs
       have ha:=hr.awaited current hsl hs
       rw [← hup] at ha
       exact ha
     · intro hs
       rw [hse]
       exact hr.latest hs
   · cases hu

section
variable (h : s.Running since₀)
include h

lemma Running.wait {next' : ℕ} (hl : s.latest = s.delivered.getLast?) (hn : next' ≤ s.slotUpdates.length)
    (ha : ∀ next current, s.watch.updates = some next → s.since < current.1 →
      Broadcast.Awaits watchBuffer s.slotUpdates next current →
      Broadcast.Awaits watchBuffer s.slotUpdates next' current) : Running since₀ { s with watch := .recv next' } := by
 refine ⟨h.le_since,?_,?_,?_⟩
 · intro k hk
   exact some.inj hk ▸ hn
 · intro current hsl hs
   rcases h.awaited current hsl hs with hp|⟨next,hu,hold⟩
   · exact .inl hp
   · exact .inr ⟨next',rfl,ha next current hu hs hold⟩
 · intro hs
   have hx:=h.latest hs
   rw [hl] at hx
   exact hx

lemma Running.subscribe (hw : s.watch = .subscribe) :
    Running since₀ { s with watch := .recv s.slotUpdates.length } := by
 refine h.wait ?_ le_rfl ?_
 · rw [Sys.latest,hw]
 · intro next current hu
   rw [hw] at hu
   cases hu

variable {next next' : ℕ}

lemma Running.lagged (hw : s.watch = .recv next) (hr : recv watchBuffer s.slotUpdates next = .lagged next') :
    Running since₀ { s with watch := .recv next' } := by
 refine h.wait ?_ (recv_le (.inl hr)) ?_
 · rw [Sys.latest,hw]
 · intro k current hk _ ha
   rw [hw] at hk
   cases hk
   exact ha.lagged hr

lemma Running.skip (hw : s.watch = .recv next)
    (hr : recv watchBuffer s.slotUpdates next = .value x next') (hx : ¬ s.since < x.1) :
    Running since₀ { s with watch := .recv next' } := by
 refine h.wait ?_ (recv_le (.inr ⟨x,hr⟩)) ?_
 · rw [Sys.latest,hw]
 · intro k current hk hs ha
   rw [hw] at hk
   cases hk
   rcases ha.value hr with rfl|ha
   · exact absurd hs hx
   · exact ha

lemma Running.advance (hw : s.watch = .recv next)
    (hr : recv watchBuffer s.slotUpdates next = .value x next') (hx : s.since < x.1) (hb : s.Behind x) :
    Running since₀ { s with since := x.1, watch := .sendUpdate x next' } := by
 refine ⟨h.le_since.trans hx.le,?_,?_,?_⟩
 · intro k hk
   exact some.inj hk ▸ recv_le (.inr ⟨x,hr⟩)
 · intro current hsl hlt
   rcases h.awaited current hsl (lt_trans hx hlt) with hp|⟨k,hk,ha⟩
   · exact .inl hp
   · rw [hw] at hk
     cases hk
     rcases ha.value hr with rfl|ha
     · exact absurd hlt (lt_irrefl _)
     · exact .inr ⟨next',rfl,ha⟩
 · intro _
   exact ⟨x,rfl,rfl,hb⟩

end

section
variable (h : s.Inv since₀)
include h

lemma Inv.recv {next : ℕ} (hw : s.watch = .recv next)
    (hok : ∀ x ∈ s.incoming, s.since < x.1 → ∀ current ∈ s.slot, current.1 = x.1 → current = x)
    (hu : s.runWatch = some u) : u.Inv since₀ := by
 have hr:=h.running (hw ▸ Pc.noConfusion) (hw ▸ Pc.noConfusion)
 simp only [runWatch,hw] at hu
 split at hu
 · cases hu
 · rename_i next' hre
   cases hu
   exact h.of_running rfl rfl rfl Pc.noConfusion fun _=>hr.lagged hw hre
 · rename_i x next' hre
   split at hu
   · rename_i hx
     cases hu
     have hm : x ∈ s.slotUpdates := mem_of_getElem? (recv_eq_value hre).1
     have hi : s.incoming = some x := by simp only [incoming,hw,hre]
     obtain ⟨current,hs,hle⟩:=h.recorded x (.inr hm)
     have hb : s.Behind x := ⟨current,hs,hle.lt_or_eq.imp_right fun heq=>(hok x hi hx current hs heq.symm).symm⟩
     exact h.of_running rfl rfl rfl Pc.noConfusion fun _=>hr.advance hw hre hx hb
   · rename_i hx
     cases hu
     exact h.of_running rfl rfl rfl Pc.noConfusion fun _=>hr.skip hw hre hx

lemma Inv.runWatch (hok : Orderly s .watch) (hu : s.runWatch = some u) : u.Inv since₀ := by
 cases hw : s.watch with
 | readSlot =>
  simp only [Sys.runWatch,hw] at hu
  cases hu
  exact h.readSlot hw
 | sendSlot x =>
  have hr:=h.running (hw ▸ Pc.noConfusion) (hw ▸ Pc.noConfusion)
  simp only [Sys.runWatch,hw] at hu
  refine h.sendItem hr ?_ ?_ (.inl rfl) hu
  · rw [latest,hw]
  · rw [hw]; rfl
 | subscribe =>
  have hr:=h.running (hw ▸ Pc.noConfusion) (hw ▸ Pc.noConfusion)
  simp only [Sys.runWatch,hw] at hu
  cases hu
  exact h.of_running rfl rfl rfl Pc.noConfusion fun _=>hr.subscribe hw
 | recv next => exact h.recv hw hok hu
 | sendUpdate x next =>
  have hr:=h.running (hw ▸ Pc.noConfusion) (hw ▸ Pc.noConfusion)
  simp only [Sys.runWatch,hw] at hu
  refine h.sendItem hr ?_ ?_ (.inr ⟨next,rfl⟩) hu
  · rw [latest,hw]
  · rw [hw]; rfl
 | stopped =>
  simp only [Sys.runWatch,hw] at hu
  cases hu

lemma Inv.of_delivered {channel taken : List (UInt64 × Bytes)}
    (hd : taken ++ channel = s.delivered) (receiving : Bool) :
    Inv since₀ { s with channel := channel, receiving := receiving, taken := taken } := by
 have hl : latest { s with channel := channel,receiving := receiving,taken := taken } = s.latest := by
  simp only [latest,← hd]
  rfl
 refine ⟨h.recorded,h.unread,?_⟩
 intro hre hs
 have hr:=h.running hre hs
 refine ⟨hr.le_since,hr.updates_le,hr.awaited,?_⟩
 rw [hl]
 exact hr.latest

lemma Inv.take (hu : s.take = some u) : u.Inv since₀ := by
 unfold Sys.take at hu
 split at hu
 · rename_i x rest _ hc
   cases hu
   refine h.of_delivered ?_ s.receiving
   rw [delivered,hc,append_assoc]
   rfl
 · cases hu

end

lemma inv_init (since₀ : UInt64) : (init since₀ : Sys ι).Inv since₀ := by
 refine ⟨?_,fun _=>rfl,fun hr=>absurd rfl hr⟩
 intro x hx
 rcases hx with ⟨i,hi⟩|hs
 · cases hi
 · cases hs

lemma Inv.step [DecidableEq ι] {a : Act ι} (h : s.Inv since₀) (hok : Orderly s a)
    (hu : step s a = some u) : u.Inv since₀ := by
 cases a with
 | recordSlot i version sealed => exact h.recordSlot hok hu
 | sendUpdate i => exact h.sendUpdate hok hu
 | watch => exact h.runWatch hok hu
 | take => exact h.take hu
 | close =>
  cases hu
  exact h.of_delivered rfl false

lemma Running.last_of_settled (h : s.Running since₀) (hs : s.Settled)
    {current : UInt64 × Bytes} (hsl : s.slot = some current) (hab : since₀ < current.1) :
    s.delivered.getLast? = some current := by
 obtain ⟨hid,hw⟩:=hs
 have hr : current.1 ≤ s.since := by
  by_contra hlt
  rcases h.awaited current hsl (not_le.mp hlt) with ⟨i,hi⟩|⟨next,hn,ha⟩
  · exact absurd ((hid i).symm.trans hi) nofun
  · rw [hw] at hn
    cases hn
    exact not_awaits_length ha
 obtain ⟨x,hl,hv,current',hs',hc⟩:=h.latest (lt_of_lt_of_le hab hr)
 obtain rfl:=some.inj (hsl.symm.trans hs')
 rw [Sys.latest,hw] at hl
 rcases hc with hlt|rfl
 · exact absurd hlt (not_lt.mpr (hv ▸ hr))
 · exact hl

end Sys

/-- A watch that has received all updates delivered the current pair last, if that is above what it started from. -/
theorem watch_converges [DecidableEq ι] (since : UInt64) (acts : List (Act ι)) (s : Sys ι)
    (h : GuardedRuns step Orderly (init since) acts s) (hsettled : s.Settled)
    (current : UInt64 × Bytes) (hslot : s.slot = some current) (habove : since < current.1) :
    s.delivered.getLast? = some current := by
 have hi : s.Inv since := h.invariant (Sys.Inv since) (inv_init since)
  fun _ _ _ hs hok hu=>hs.step hok hu
 have hr:=hi.running (hsettled.2 ▸ Pc.noConfusion) (hsettled.2 ▸ Pc.noConfusion)
 exact hr.last_of_settled hsettled hslot habove

def plainCalls : List (Act Unit) :=
  [.recordSlot () 1 (ascii "a"), .watch, .sendUpdate (), .watch, .watch, .recordSlot () 2 (ascii "b"),
    .sendUpdate (), .watch, .watch, .take]

theorem watch_converges_plain : ∃ s : Sys Unit, GuardedRuns step Orderly (init 0) plainCalls s ∧
    s.slot = some (2, ascii "b") ∧ s.delivered.getLast? = some (2, ascii "b") := by
 have hr : GuardedRuns step Orderly (init 0) plainCalls _ := guardedRuns_of_execIf rfl
 exact ⟨_,hr,rfl,watch_converges 0 plainCalls _ hr ⟨fun _=>rfl,rfl⟩ _ rfl (by decide)⟩

def racingCalls : List (Act Unit) :=
  [.recordSlot () 1 (ascii "a"), .sendUpdate (), .watch, .watch, .recordSlot () 2 (ascii "b"), .sendUpdate (), .watch]

def tyingCalls : List (Act Unit) :=
  [.recordSlot () 1 (ascii "a"), .sendUpdate (), .watch, .watch, .watch, .recordSlot () 1 (ascii "b"),
    .sendUpdate (), .watch]

/-- The current pair is sent first, then as many older ones as the channel keeps. -/
def laggingCalls : List (Act (Fin 65)) :=
  [.watch, .watch] ++
  (List.finRange 65).map (fun i => .recordSlot i (UInt64.ofNat i + 1) (ascii "a")) ++
  .sendUpdate 64 :: (List.finRange 64).map (fun i => .sendUpdate i.castSucc) ++
  List.replicate 129 .watch

theorem watch_misses_update : (∃ s : Sys Unit, Runs step (init 0) racingCalls s ∧ s.Settled ∧
      s.slot = some (2, ascii "b") ∧ s.delivered = [(1, ascii "a")]) ∧
    (∃ s : Sys Unit, Runs step (init 0) tyingCalls s ∧ s.Settled ∧
      s.slot = some (1, ascii "b") ∧ s.delivered = [(1, ascii "a")]) ∧
    ∃ s : Sys (Fin 65), Runs step (init 0) laggingCalls s ∧ s.Settled ∧
      s.slot = some (65, ascii "a") ∧ s.delivered.getLast? = some (64, ascii "a") := by
 refine ⟨⟨_,runs_of_exec rfl,⟨fun _=>rfl,rfl⟩,rfl,rfl⟩, ⟨_,runs_of_exec rfl,⟨fun _=>rfl,rfl⟩,rfl,rfl⟩,?_⟩
 decide +kernel

end Enlace.Iroh.Topic
