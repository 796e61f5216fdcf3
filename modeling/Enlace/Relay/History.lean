import Enlace.Lib.Fifo
import Enlace.Lib.Transition
import Enlace.Relay.Tables
import Mathlib.Data.List.Chain

set_option autoImplicit false

/-! Histories of calls on the relay's tables, at times that do not go back: what each slot read and
write answers, and what becomes of each mailbox entry. -/
namespace Enlace.Relay.History
open ByteString Table Transition Fifo List Function Option

inductive Call where
  | push (id : RelayId) (body : Bytes)
  | pop (id : RelayId)
  | put (id : RelayId) (slot : SlotEntry)
  | get (id : RelayId) (since : UInt64)

inductive SlotEvent where
  | put (now : ℕ) (id : RelayId) (slot : SlotEntry) (stored : Bool)
  | get (now : ℕ) (id : RelayId) (since : UInt64) (answer : Option SlotEntry)

structure Sys where
  now : ℕ
  tables : Tables
  ledgers : RelayId → Ledger ℕ MailboxEntry
  popped : RelayId → List Bytes
  slotLog : List SlotEvent

def start (now : ℕ) (slots : Map RelayId SlotEntry) : Sys :=
  ⟨now, ⟨.empty, slots⟩, fun _ => .empty, fun _ => [], []⟩

namespace Sys

variable (cfg : RelayConfig) (s : Sys)

def push (id : RelayId) (body : Bytes) : Sys :=
  { s with
    tables := s.tables.pushMailbox cfg s.now id body
    ledgers := Function.update s.ledgers id
      ((s.ledgers id).push cfg.mailboxCapacity ⟨body, s.now + cfg.mailboxTtl⟩) }

def pop (id : RelayId) : Sys :=
  let r := s.tables.popMailbox s.now id
  { s with
    tables := r.1
    ledgers := Function.update s.ledgers id ((s.ledgers id).pop MailboxEntry.expired s.now)
    popped := Function.update s.popped id (s.popped id ++ r.2.toList) }

def put (id : RelayId) (slot : SlotEntry) : Sys :=
  match s.tables.putSlot s.now id slot with
  | none => { s with slotLog := s.slotLog ++ [.put s.now id slot false] }
  | some tables => { s with tables := tables, slotLog := s.slotLog ++ [.put s.now id slot true] }

def get (id : RelayId) (since : UInt64) : Sys :=
  let r := s.tables.getSlotNewer s.now id since
  { s with tables := r.1, slotLog := s.slotLog ++ [.get s.now id since r.2] }

def call : Call → Sys
  | .push id body => s.push cfg id body
  | .pop id => s.pop id
  | .put id slot => s.put id slot
  | .get id since => s.get id since

end Sys

def step (cfg : RelayConfig) (s : Sys) (a : ℕ × Call) : Option Sys :=
  if s.now ≤ a.1 then some ({ s with now := a.1 }.call cfg a.2) else none

variable {a : ℕ × Call}

lemma step_eq_some {cfg : RelayConfig} {s u : Sys} (h : step cfg s a = some u) :
    s.now ≤ a.1 ∧ { s with now := a.1 }.call cfg a.2 = u := by
 unfold step at h
 split at h
 · rename_i hle
   exact ⟨hle,some.inj h⟩
 · cases h

section Mailbox

lemma get_pushMailbox (cfg : RelayConfig) (now : ℕ) (t : Tables) (id id' : RelayId) (body : Bytes) :
    (t.pushMailbox cfg now id body).mailboxes.get id' = if id' = id then
      some (((t.mailboxes.get id).getD []).drop (((t.mailboxes.get id).getD []).length + 1 - cfg.mailboxCapacity) ++
          [⟨body, now + cfg.mailboxTtl⟩]) else t.mailboxes.get id' :=
 Keyed.get_insert _ _ _ _ trivial

lemma popMailbox_snd (now : ℕ) (t : Tables) (id : RelayId) : (t.popMailbox now id).2 =
    (((t.mailboxes.get id).getD []).dropWhile (MailboxEntry.expired now)).head?.map MailboxEntry.body := by
 unfold Tables.popMailbox
 cases t.mailboxes.get id with
 | none => rfl
 | some q => rfl

lemma get_popMailbox (now : ℕ) (t : Tables) (id id' : RelayId) :
    (t.popMailbox now id).1.mailboxes.get id' = if id' = id then
      (some (((t.mailboxes.get id).getD []).dropWhile (MailboxEntry.expired now)).tail).filter (!·.isEmpty)
      else t.mailboxes.get id' := by
 unfold Tables.popMailbox
 cases hq : t.mailboxes.get id with
 | none =>
  by_cases he : id' = id
  · rw [if_pos he,he,hq]
    rfl
  · rw [if_neg he]
 | some q =>
  simp only [getD_some,filter_some]
  cases hem : (q.dropWhile (MailboxEntry.expired now)).tail.isEmpty with
  | true => exact Keyed.get_erase _ _ _
  | false => exact Keyed.get_insert _ _ _ _ trivial

structure MailboxOk (cfg : RelayConfig) (now : ℕ) (q : Option (List MailboxEntry))
    (l : Ledger ℕ MailboxEntry) (popped : List Bytes) : Prop where
  queue : q.getD [] = l.queue
  nonempty : q ≠ some []
  accounted : l.Accounted cfg.mailboxCapacity MailboxEntry.expired
  popped : popped = l.taken.map MailboxEntry.body
  past : ∀ entry time, (entry, Cause.stale time) ∈ l.departures → time ≤ now

section One

variable {cfg : RelayConfig} {now : ℕ} {q : Option (List MailboxEntry)} {l : Ledger ℕ MailboxEntry}
  {popped : List Bytes}

section
variable (h : MailboxOk cfg now q l popped)
include h

lemma MailboxOk.later {time : ℕ} (hle : now ≤ time) : MailboxOk cfg time q l popped :=
 { h with past := fun entry t hm=>(h.past entry t hm).trans hle }

lemma MailboxOk.push (entry : MailboxEntry) :
    MailboxOk cfg now (some ((q.getD []).drop ((q.getD []).length + 1 - cfg.mailboxCapacity) ++ [entry]))
      (l.push cfg.mailboxCapacity entry) popped where
 queue := by
  rw [h.queue]
  rfl
 nonempty he := by
  have hl:=congrArg length (some.inj he)
  rw [length_append] at hl
  cases hl
 accounted := h.accounted.push cfg.capacity_pos entry
 popped := by
  rw [Ledger.taken_push]
  exact h.popped
 past e time hm := by
  rcases mem_append.mp hm with hm|hm
  · exact h.past e time hm
  · obtain ⟨_,_,heq⟩:=mem_map.mp hm
    cases (Prod.mk.inj heq).2

lemma MailboxOk.pop :
    MailboxOk cfg now ((some ((q.getD []).dropWhile (MailboxEntry.expired now)).tail).filter (!·.isEmpty))
      (l.pop MailboxEntry.expired now)
      (popped ++ (((q.getD []).dropWhile (MailboxEntry.expired now)).head?.map MailboxEntry.body).toList) where
 queue := by
  rw [h.queue]
  change _ = (l.queue.dropWhile (MailboxEntry.expired now)).tail
  cases (l.queue.dropWhile (MailboxEntry.expired now)).tail <;> rfl
 nonempty he := by
  obtain ⟨hl,hne⟩:=filter_eq_some_iff.mp he
  cases hne
 accounted := h.accounted.pop now
 popped := by
  rw [Ledger.taken_pop,map_append,toList_map,← h.popped,h.queue]
 past e time hm := by
  rcases mem_append.mp hm with hm|hm
  · exact h.past e time hm
  · rcases mem_append.mp hm with hm|hm
    · obtain ⟨_,_,heq⟩:=mem_map.mp hm
      exact (Cause.stale.inj (Prod.mk.inj heq).2).ge
    · obtain ⟨_,_,heq⟩:=mem_map.mp hm
      cases (Prod.mk.inj heq).2

end

end One

def MailboxInv (cfg : RelayConfig) (s : Sys) : Prop :=
  ∀ id, MailboxOk cfg s.now (s.tables.mailboxes.get id) (s.ledgers id) (s.popped id)

variable {cfg : RelayConfig} {s u : Sys}

lemma mailboxInv_start (now : ℕ) (slots : Map RelayId SlotEntry) : MailboxInv cfg (start now slots) :=
 fun _=>⟨rfl,(nomatch ·),Ledger.accounted_empty,rfl,nofun⟩

section
variable (h : MailboxInv cfg s)
include h

lemma MailboxInv.push (id : RelayId) (body : Bytes) : MailboxInv cfg (s.push cfg id body) := by
 intro id'
 change MailboxOk cfg s.now ((s.tables.pushMailbox cfg s.now id body).mailboxes.get id')
  (update s.ledgers id _ id') (s.popped id')
 rw [get_pushMailbox]
 by_cases he : id' = id
 · rw [if_pos he,he,update_self]
   exact (h id).push _
 · rw [if_neg he,update_of_ne he]
   exact h id'

lemma MailboxInv.pop (id : RelayId) : MailboxInv cfg (s.pop id) := by
 intro id'
 change MailboxOk cfg s.now ((s.tables.popMailbox s.now id).1.mailboxes.get id')
  (update s.ledgers id _ id') (update s.popped id _ id')
 rw [get_popMailbox]
 by_cases he : id' = id
 · rw [if_pos he,he,update_self,update_self,popMailbox_snd]
   exact (h id).pop
 · rw [if_neg he,update_of_ne he,update_of_ne he]
   exact h id'

lemma MailboxInv.put (id : RelayId) (slot : SlotEntry) : MailboxInv cfg (s.put id slot) := by
 unfold Sys.put Tables.putSlot
 split_ifs
 · exact h
 · exact h

lemma MailboxInv.get (id : RelayId) (since : UInt64) : MailboxInv cfg (s.get id since) := by
 have hm : (s.tables.getSlotNewer s.now id since).1.mailboxes = s.tables.mailboxes := by
  unfold Tables.getSlotNewer
  cases s.tables.slots.get id with
  | none => rfl
  | some slot =>
   cases he : slot.expired s.now with
   | true => simp only [he,if_true]
   | false => simp only [he,Bool.false_eq_true,if_false]
 intro id'
 change MailboxOk cfg s.now ((s.tables.getSlotNewer s.now id since).1.mailboxes.get id') _ _
 rw [hm]
 exact h id'

end

lemma mailboxInv_step (hs : MailboxInv cfg s) (h : step cfg s a = some u) : MailboxInv cfg u := by
 obtain ⟨hle,rfl⟩:=step_eq_some h
 have hl : MailboxInv cfg { s with now := a.1 } := fun id=>(hs id).later hle
 cases hc : a.2 with
 | push id body => exact hl.push id body
 | pop id => exact hl.pop id
 | put id slot => exact hl.put id slot
 | get id since => exact hl.get id since

def pushed (cfg : RelayConfig) (id : RelayId) : ℕ × Call → Option MailboxEntry
  | (now, .push id' body) => if id = id' then some ⟨body, now + cfg.mailboxTtl⟩ else none
  | _ => none

lemma pushed_step (id : RelayId) (h : step cfg s a = some u) :
    (u.ledgers id).pushed = (s.ledgers id).pushed ++ (pushed cfg id a).toList := by
 obtain ⟨_,rfl⟩:=step_eq_some h
 obtain ⟨now,c⟩:=a
 cases c with
 | push id' body =>
  change (update s.ledgers id' _ id).pushed = _ ++ (if id = id' then some _ else none).toList
  by_cases he : id = id'
  · rw [he,update_self,if_pos rfl]
    rfl
  · rw [update_of_ne he,if_neg he]
    exact (append_nil _).symm
 | pop id' =>
  change (update s.ledgers id' _ id).pushed = (s.ledgers id).pushed ++ []
  rw [append_nil]
  by_cases he : id = id'
  · rw [he,update_self]
    rfl
  · rw [update_of_ne he]
 | put id' slot =>
  have hl : ({ s with now := now }.put id' slot).ledgers = s.ledgers := by
   unfold Sys.put
   split
   · rfl
   · rfl
  change (({ s with now := now }.put id' slot).ledgers id).pushed = (s.ledgers id).pushed ++ []
  rw [hl,append_nil]
 | get id' since => exact (append_nil _).symm

lemma pushed_of_runs {as : List (ℕ × Call)} (h : Runs (step cfg) s as u) (id : RelayId) :
    (u.ledgers id).pushed = (s.ledgers id).pushed ++ as.filterMap (pushed cfg id) := by
 induction h with
 | refl s => exact (append_nil _).symm
 | @next s v u a as h _ ih =>
  rw [ih,pushed_step id h,append_assoc,filterMap_cons]
  cases pushed cfg id a <;> rfl

/-- After any calls a mailbox holds at most its capacity, and its queue is not empty; what was pushed has left in order
or waits; its pops took entries that had not expired; and any other entry that has left has expired, or made room for a
push. -/
theorem mailbox_history (cfg : RelayConfig) (now : ℕ) (slots : Map RelayId SlotEntry)
    (calls : List (ℕ × Call)) (s : Sys) (h : Runs (step cfg) (start now slots) calls s) (id : RelayId) :
    ((s.tables.mailboxes.get id).getD []).length ≤ cfg.mailboxCapacity ∧
    s.tables.mailboxes.get id ≠ some [] ∧
    calls.filterMap (pushed cfg id) = (s.ledgers id).departures.map Prod.fst ++ (s.tables.mailboxes.get id).getD [] ∧
    s.popped id = (s.ledgers id).taken.map MailboxEntry.body ∧
    (s.ledgers id).taken.Sublist (calls.filterMap (pushed cfg id)) ∧
    (∀ entry time, (entry, Cause.taken time) ∈ (s.ledgers id).departures → time < entry.expiresAt) ∧
    ∀ k entry cause, (s.ledgers id).departures[k]? = some (entry, cause) →
      (∃ time, cause = .taken time) ∨ entry.expiresAt ≤ s.now ∨
      ∃ n, cause = .overflow n ∧ k + cfg.mailboxCapacity < n ∧ n ≤ (calls.filterMap (pushed cfg id)).length := by
 have hok : MailboxOk cfg s.now _ (s.ledgers id) (s.popped id) :=
  h.invariant (MailboxInv cfg) (mailboxInv_start now slots)
   (fun _ _ _ hs hu=>mailboxInv_step hs hu) id
 have hpushed : (s.ledgers id).pushed = calls.filterMap (pushed cfg id) := pushed_of_runs h id
 rw [hok.queue,← hpushed]
 refine ⟨hok.accounted.size,hok.nonempty,hok.accounted.order,hok.popped,hok.accounted.taken_sublist,?_,?_⟩
 · intro entry time hm
   have hf:=of_decide_eq_false (hok.accounted.fresh entry time hm)
   omega
 · intro k entry cause hk
   cases cause with
   | taken time => exact .inl ⟨time,rfl⟩
   | stale time =>
    have hm:=mem_of_getElem? hk
    have hst:=of_decide_eq_true (hok.accounted.stale entry time hm)
    exact .inr (.inl (hst.trans (hok.past entry time hm)))
   | overflow n => exact .inr (.inr ⟨n,rfl,hok.accounted.overflow k entry n hk⟩)

lemma plainId_valid : ((replicate 32 (0x61 : UInt8)).length == 32 &&
    (replicate 32 (0x61 : UInt8)).all RelayId.isHex) = true := by decide

def plainId : RelayId := ⟨List.replicate 32 0x61, plainId_valid⟩

def plainCalls : List (ℕ × Call) :=
  [(0, .push plainId (ascii "a")), (1, .push plainId (ascii "b")), (2, .pop plainId)]

theorem mailbox_history_plain : ∃ s, Runs (step plainConfig) (start 0 .empty) plainCalls s ∧
    s.popped plainId = [ascii "a"] ∧
    s.popped plainId = (s.ledgers plainId).taken.map MailboxEntry.body ∧
    (s.ledgers plainId).taken.Sublist (plainCalls.filterMap (pushed plainConfig plainId)) := by
 have hr : Runs (step plainConfig) (start 0 .empty) plainCalls _ := runs_of_exec rfl
 obtain ⟨_,_,_,hp,hs,_⟩:=mailbox_history plainConfig 0 .empty plainCalls _ hr plainId
 exact ⟨_,hr,rfl,hp,hs⟩

end Mailbox

open SlotEvent

section Slot

def SlotEvent.storedFor (id : RelayId) : SlotEvent → Option (ℕ × SlotEntry)
  | .put now id' slot true => if id = id' then some (now, slot) else none
  | _ => none

def storedPuts (id : RelayId) (log : List SlotEvent) : List (ℕ × SlotEntry) :=
  log.filterMap (SlotEvent.storedFor id)

/-- What was stored last under an id; at first, what the table held at the start. -/
def last (slots : Map RelayId SlotEntry) (id : RelayId) (log : List SlotEvent) : Option SlotEntry :=
  ((storedPuts id log).getLast?.map Prod.snd).or (slots.get id)

/-- A put is stored unless the last entry is unexpired and not older; a read returns the last entry when it is unexpired
and newer than `since`. -/
def SlotEvent.Expected (slots : Map RelayId SlotEntry) (before : List SlotEvent) : SlotEvent → Prop
  | .put now id slot stored => (stored = true ↔
      ∀ e, last slots id before = some e → now < e.expiresAt → e.version < slot.version)
  | .get now id since answer => answer = (last slots id before).filter fun e =>
      decide (now < e.expiresAt) && decide (since < e.version)

lemma storedPuts_append (id : RelayId) (log : List SlotEvent) (e : SlotEvent) :
    storedPuts id (log ++ [e]) = storedPuts id log ++ (e.storedFor id).toList := by
 rw [storedPuts,filterMap_append]
 cases he : e.storedFor id with
 | none => rw [filterMap_cons_none he]; rfl
 | some p => rw [filterMap_cons_some he]; rfl

lemma last_append (slots : Map RelayId SlotEntry) (id : RelayId) (log : List SlotEvent) (e : SlotEvent) :
    last slots id (log ++ [e]) = ((e.storedFor id).map Prod.snd).or (last slots id log) := by
 rw [last,storedPuts_append]
 cases e.storedFor id with
 | none => rw [toList_none,append_nil]; rfl
 | some p => rw [toList_some,getLast?_append_of_ne_nil _ (by simp)]; rfl

lemma forall_split_concat {α : Type} {p : List α → α → Prop} {l : List α} {a : α}
    (h : ∀ before x after, l = before ++ x :: after → p before x) (ha : p l a) :
    ∀ before x after, l ++ [a] = before ++ x :: after → p before x := by
 intro before x after heq
 rcases eq_nil_or_concat after with rfl|⟨after,y,rfl⟩
 · obtain ⟨rfl,hx⟩:=append_inj' heq rfl
   obtain rfl:=singleton_inj.mp hx
   exact ha
 · rw [concat_eq_append,← cons_append,← append_assoc] at heq
   exact h before x after (append_inj' heq rfl).1

structure SlotInv (slots : Map RelayId SlotEntry) (s : Sys) : Prop where
  held : ∀ id, s.tables.slots.get id = last slots id s.slotLog ∨
    s.tables.slots.get id = none ∧ ∃ e, last slots id s.slotLog = some e ∧ e.expiresAt ≤ s.now
  expected : ∀ before e after, s.slotLog = before ++ e :: after → e.Expected slots before
  grows : ∀ id, (storedPuts id s.slotLog).IsChain fun a b => b.1 < a.2.expiresAt → a.2.version < b.2.version

variable {slots : Map RelayId SlotEntry} {cfg : RelayConfig} {s u : Sys}

lemma slotInv_start (now : ℕ) : SlotInv slots (start now slots) where
 held _ := .inl rfl
 expected before e after h := by
  have hl:=congrArg length h
  exact absurd hl (by simp [start])
 grows _ := List.IsChain.nil

lemma SlotInv.later (h : SlotInv slots s) (hn : s.now ≤ u.now) (hs : u.tables.slots = s.tables.slots)
    (hl : u.slotLog = s.slotLog) : SlotInv slots u where
 held id := by
  rw [hs,hl]
  rcases h.held id with hsa|⟨hno,e,he,hex⟩
  · exact .inl hsa
  · exact .inr ⟨hno,e,he,hex.trans hn⟩
 expected := by
  rw [hl]
  exact h.expected
 grows := by
  rw [hl]
  exact h.grows

lemma SlotInv.served (h : SlotInv slots s) (id : RelayId) : s.tables.served s.now id =
    (last slots id s.slotLog).filter fun e => decide (s.now < e.expiresAt) := by
 have hex : ∀ e : SlotEntry, (!e.expired s.now) = decide (s.now < e.expiresAt) := by
  intro e
  rw [SlotEntry.expired,← decide_not,decide_eq_decide,not_le]
 rw [Tables.served]
 simp only [hex]
 rcases h.held id with hs|⟨hn,e,he,hle⟩
 · rw [hs]
 · rw [hn,he,filter_some,decide_eq_false (not_lt.mpr hle)]
   rfl

lemma putSlot_isSome (t : Tables) (now : ℕ) (id : RelayId) (slot : SlotEntry) :
    (t.putSlot now id slot).isSome = true ↔ ∀ e, t.served now id = some e → e.version < slot.version := by
 unfold Tables.putSlot Tables.served
 cases t.slots.get id with
 | none => simp
 | some current =>
  cases he : current.expired now with
  | true => simp [he]
  | false =>
   by_cases hle : slot.version ≤ current.version
   · simp [he,hle,not_lt.mpr hle]
   · simp [he,hle,not_le.mp hle]

lemma putSlot_eq_some {t t' : Tables} {now : ℕ} {id : RelayId} {slot : SlotEntry}
    (h : t.putSlot now id slot = some t') :
    ∀ id', t'.slots.get id' = if id' = id then some slot else t.slots.get id' := by
 unfold Tables.putSlot at h
 split at h
 · cases h
 · rw [← some.inj h]
   exact fun id' => Keyed.get_insert _ _ _ _ trivial

lemma get_getSlotNewer (t : Tables) (now : ℕ) (id : RelayId) (since : UInt64) (id' : RelayId) :
    (t.getSlotNewer now id since).1.slots.get id' = t.slots.get id' ∨
      id' = id ∧ (t.getSlotNewer now id since).1.slots.get id' = none ∧
        ∃ e, t.slots.get id' = some e ∧ e.expiresAt ≤ now := by
 unfold Tables.getSlotNewer
 cases hg : t.slots.get id with
 | none => exact .inl rfl
 | some slot =>
  cases hex : slot.expired now with
  | false => exact .inl (by simp [hex])
  | true =>
   simp only [hex,if_true,Keyed.get_erase]
   by_cases he : id' = id
   · rw [if_pos he,he,hg]
     exact .inr ⟨rfl,rfl,slot,rfl,of_decide_eq_true hex⟩
   · rw [if_neg he]
     exact .inl rfl

lemma SlotInv.put_expected (h : SlotInv slots s) (id : RelayId) (slot : SlotEntry) :
    (s.tables.putSlot s.now id slot).isSome = true ↔
      ∀ e, last slots id s.slotLog = some e → s.now < e.expiresAt → e.version < slot.version := by
 rw [putSlot_isSome,h.served]
 simp only [filter_eq_some_iff,decide_eq_true_eq,and_imp]

lemma SlotInv.put (h : SlotInv slots s) (id : RelayId) (slot : SlotEntry) : SlotInv slots (s.put id slot) := by
 have hi:=h.put_expected id slot
 unfold Sys.put
 cases hpu : s.tables.putSlot s.now id slot with
 | none =>
  rw [hpu] at hi
  refine ⟨fun id' => ?_,forall_split_concat h.expected hi,fun id' => ?_⟩
  · rw [last_append]
    exact h.held id'
  · rw [storedPuts_append]
    exact (append_nil _).symm ▸ h.grows id'
 | some t =>
  rw [hpu] at hi
  refine ⟨fun id' => ?_,forall_split_concat h.expected hi,fun id' => ?_⟩
  · rw [last_append,putSlot_eq_some hpu]
    by_cases he : id' = id
    · simp only [storedFor,if_pos he]
      exact .inl rfl
    · simp only [storedFor,if_neg he]
      exact h.held id'
  · rw [storedPuts_append]
    by_cases he : id' = id
    · subst he
      simp only [storedFor,if_true,toList_some]
      refine (h.grows id').append (isChain_singleton _) ?_
      intro p hp q hq hl
      cases hq
      apply hi.mp rfl p.2 _ hl
      rw [last,mem_def.mp hp]
      rfl
    · simp only [storedFor,if_neg he]
      exact (append_nil _).symm ▸ h.grows id'

lemma SlotInv.get (h : SlotInv slots s) (id : RelayId) (since : UInt64) : SlotInv slots (s.get id since) where
 held id' := by
  have hlo : last slots id' (s.get id since).slotLog = last slots id' s.slotLog := last_append _ _ _ _
  rw [hlo]
  rcases get_getSlotNewer s.tables s.now id since id' with hs|⟨_,hn,e,he,hex⟩
  · rcases h.held id' with hh|⟨hg,hl⟩
    · exact .inl (hs.trans hh)
    · exact .inr ⟨hs.trans hg,hl⟩
  · refine .inr ⟨hn,e,?_,hex⟩
    rcases h.held id' with hh|⟨hg,_⟩
    · rw [← hh,he]
    · rw [he] at hg
      cases hg
 expected := by
  refine forall_split_concat h.expected ?_
  rw [SlotEvent.Expected,getSlotNewer_eq,h.served,Option.filter_filter]
 grows id' := by
  change (storedPuts id' (s.slotLog ++ [_])).IsChain _
  rw [storedPuts_append]
  exact (append_nil _).symm ▸ h.grows id'

lemma slots_popMailbox (t : Tables) (now : ℕ) (id : RelayId) : (t.popMailbox now id).1.slots = t.slots := by
 unfold Tables.popMailbox
 cases t.mailboxes.get id with
 | none => rfl
 | some q => rfl

lemma slotInv_step (hs : SlotInv slots s) (h : step cfg s a = some u) : SlotInv slots u := by
 obtain ⟨hle,rfl⟩:=step_eq_some h
 have hl : SlotInv slots { s with now := a.1 } := hs.later hle rfl rfl
 cases hc : a.2 with
 | push id body => exact hl.later (le_refl _) rfl rfl
 | pop id => exact hl.later (le_refl _) (slots_popMailbox _ _ _) rfl
 | put id slot => exact hl.put id slot
 | get id since => exact hl.get id since

def Call.id : Call → RelayId
  | push id _ => id
  | pop id => id
  | put id _ => id
  | get id _ => id

lemma slots_step (h : step cfg s a = some u) : (∀ id, id ≠ a.2.id → u.tables.slots.get id = s.tables.slots.get id) ∧
    ∀ id slot, u.slotLog = s.slotLog ++ [.put a.1 id slot false] → u.tables = s.tables := by
 obtain ⟨_,rfl⟩:=step_eq_some h
 obtain ⟨now,c⟩:=a
 cases c with
 | push id body =>
  refine ⟨fun _ _=>rfl,fun _ _ hl=>?_⟩
  have hle:=congrArg length hl
  exact absurd hle (by simp [Sys.call,Sys.push])
 | pop id =>
  refine ⟨fun id' _=>congrArg (·.get id') (slots_popMailbox _ _ _),fun _ _ hl=>?_⟩
  have hle:=congrArg length hl
  exact absurd hle (by simp [Sys.call,Sys.pop])
 | put id slot =>
  simp only [Sys.call,Sys.put,Call.id]
  cases hp : s.tables.putSlot now id slot with
  | none => exact ⟨fun _ _=>rfl,fun _ _ _=>rfl⟩
  | some t =>
   refine ⟨fun id' hne=>?_,fun id' slot' hl=>?_⟩
   · exact (putSlot_eq_some hp id').trans (if_neg hne)
   · have hevent:=singleton_inj.mp (append_cancel_left hl)
     cases hevent
 | get id since =>
  refine ⟨fun id' hne=>?_,fun id' slot' hl=>?_⟩
  · exact (get_getSlotNewer s.tables now id since id').resolve_right fun hs=>hne hs.1
  · have hevent:=singleton_inj.mp (append_cancel_left hl)
    cases hevent

def slotCall : ℕ × Call → Option (ℕ × Call)
  | (now, .put id slot) => some (now, .put id slot)
  | (now, .get id since) => some (now, .get id since)
  | _ => none

def SlotEvent.call : SlotEvent → ℕ × Call
  | .put now id slot _ => (now, .put id slot)
  | .get now id since _ => (now, .get id since)

lemma slotLog_of_runs {as : List (ℕ × Call)} (h : Runs (step cfg) s as u) :
    u.slotLog.map call = s.slotLog.map call ++ as.filterMap slotCall := by
 induction h with
 | refl s => exact (append_nil _).symm
 | @next s v u a as h _ ih =>
  obtain ⟨_,rfl⟩:=step_eq_some h
  obtain ⟨now,c⟩:=a
  rw [ih]
  cases c with
  | push id body => rfl
  | pop id => rfl
  | put id slot =>
   simp only [Sys.call,Sys.put]
   cases s.tables.putSlot now id slot with
   | none | some t => simp [slotCall,call]
  | get id since => simp [Sys.call,Sys.get,slotCall,call]

/-- Every put and read of a slot answers as the last stored put before it asks for. While no entry of an id expires, its
stored versions grow. No call touches the slot of another id, and a stale put touches none. -/
theorem slot_history (cfg : RelayConfig) (now : ℕ) (slots : Map RelayId SlotEntry)
    (calls : List (ℕ × Call)) (s : Sys) (h : Runs (step cfg) (start now slots) calls s) :
    s.slotLog.map SlotEvent.call = calls.filterMap slotCall ∧
    (∀ before e after, s.slotLog = before ++ e :: after → e.Expected slots before) ∧
    (∀ id l, l <:+: storedPuts id s.slotLog → l.IsChain (fun a b => b.1 < a.2.expiresAt) →
      l.Pairwise fun a b => a.2.version < b.2.version) ∧
    ∀ (u v : Sys) (a : ℕ × Call), step cfg u a = some v →
      (∀ id, id ≠ a.2.id → v.tables.slots.get id = u.tables.slots.get id) ∧
      ∀ id slot, v.slotLog = u.slotLog ++ [.put a.1 id slot false] → v.tables = u.tables := by
 have hi : SlotInv slots s := h.invariant (SlotInv slots) (slotInv_start now) fun _ _ _ hs hu=>slotInv_step hs hu
 refine ⟨slotLog_of_runs h,hi.expected,fun id l hl hli=>?_,fun u v a=>slots_step⟩
 obtain ⟨before,after,hp⟩:=hl
 have hg:=hi.grows id
 rw [← hp] at hg
 replace hg := hg.left_of_append.right_of_append
 have hc : l.IsChain fun a b=>a.2.version < b.2.version := by
  rw [isChain_iff_forall_rel_of_append_cons_cons] at hg hli ⊢
  intro a b l₁ l₂ heq
  exact hg heq (hli heq)
 exact isChain_iff_pairwise.mp hc

lemma plainSlot_inRange : 5 < maxTime := by decide

def plainSlot (version : UInt64) : SlotEntry := ⟨version, ascii "v", 5, plainSlot_inRange⟩

def plainSlotCalls : List (ℕ × Call) :=
  [(0, .put plainId (plainSlot 1)), (1, .put plainId (plainSlot 2)), (2, .put plainId (plainSlot 2)),
    (3, .get plainId 1)]

theorem slot_history_plain : ∃ s, Runs (step plainConfig) (start 0 .empty) plainSlotCalls s ∧
    s.slotLog.map SlotEvent.call = plainSlotCalls.filterMap slotCall ∧
    ∃ before after, s.slotLog = before ++ .get 3 plainId 1 (some (plainSlot 2)) :: after ∧
      (SlotEvent.get 3 plainId 1 (some (plainSlot 2))).Expected .empty before := by
 have hr : Runs (step plainConfig) (start 0 .empty) plainSlotCalls _ := runs_of_exec rfl
 obtain ⟨hc,he,_⟩:=slot_history plainConfig 0 .empty plainSlotCalls _ hr
 exact ⟨_,hr,hc,_,[],rfl,he _ _ [] rfl⟩

end Slot

end Enlace.Relay.History
