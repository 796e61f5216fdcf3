import Enlace.Lib.Transition

set_option autoImplicit false

/-! The subscriptions of an agent's sessions to one channel (`enlace-agent/src/lib.rs`). -/
namespace Enlace.Agent
open Transition List Function

def sessionBuffer : ℕ := 64

/-- What the loop of `spawn_subscription` awaits: `mailbox.recv()` or `session.send(..)`. -/
inductive Task
  | receiving
  | sending (message : ℕ)
  | ended
  deriving DecidableEq

structure Subscription where
  session : ℕ
  task : Task

/-- `outbound` is what waits for the loop of a session, nothing once that has ended. `owed` are the messages obtained
while a subscribed session was connected, `strays` those obtained by a task whose own was not. -/
structure Sys where
  outbound : ℕ → Option (List ℕ)
  subscriptions : List Subscription
  messages : ℕ
  delivered : List ℕ
  owed : List ℕ
  strays : List ℕ

/-- `fail` is an error of the mailbox. A write to the socket that fails is a `disconnect`. -/
inductive Event
  | subscribe (x : ℕ)
  | receive (t : ℕ)
  | fail (t : ℕ)
  | send (t : ℕ)
  | write (x : ℕ)
  | disconnect (x : ℕ)

namespace Sys

def start : Sys := ⟨fun _ => some [], [], 0, [], [], []⟩

def setOutbound (s : Sys) (x : ℕ) (queue : Option (List ℕ)) : Sys :=
  { s with outbound := Function.update s.outbound x queue }

def setTask (s : Sys) (t x : ℕ) (task : Task) : Sys :=
  { s with subscriptions := s.subscriptions.set t ⟨x, task⟩ }

def obtain (s : Sys) (x : ℕ) : Sys :=
  { s with
    messages := s.messages + 1
    owed := if s.subscriptions.any fun sub => (s.outbound sub.session).isSome then s.messages :: s.owed else s.owed
    strays := if (s.outbound x).isSome then s.strays else s.messages :: s.strays }

def step (s : Sys) : Event → Option Sys
  | .subscribe x =>
    if (s.outbound x).isSome then some { s with subscriptions := s.subscriptions ++ [⟨x, .receiving⟩] } else none
  | .receive t => match s.subscriptions[t]? with
    | some ⟨x, .receiving⟩ => some ((s.obtain x).setTask t x (.sending s.messages))
    | _ => none
  | .fail t => match s.subscriptions[t]? with
    | some ⟨x, .receiving⟩ => some (s.setTask t x .ended)
    | _ => none
  | .send t => match s.subscriptions[t]? with
    | some ⟨x, .sending message⟩ => match s.outbound x with
      | some queue =>
        if queue.length < sessionBuffer then some ((s.setOutbound x (queue ++ [message])).setTask t x .receiving)
        else none
      | none => some (s.setTask t x .ended)
    | _ => none
  | .write x => match s.outbound x with
    | some (message :: rest) => some { s.setOutbound x rest with delivered := message :: s.delivered }
    | _ => none
  | .disconnect x => if (s.outbound x).isSome then some (s.setOutbound x none) else none

/-- A connected session has the message in its channel, or one of its tasks is about to put it there. -/
def OnItsWay (s : Sys) (message : ℕ) : Prop :=
  ∃ x queue, s.outbound x = some queue ∧ (message ∈ queue ∨ ⟨x, .sending message⟩ ∈ s.subscriptions)

/-- What was obtained for a connected session is delivered or on its way, and no task has obtained anything for one that
had gone. -/
def LosesNone (s : Sys) : Prop := (∀ message ∈ s.owed, message ∈ s.delivered ∨ s.OnItsWay message) ∧ s.strays = []

/-- The mailbox gives no message to a task whose session has gone, and a session goes only when nothing waits for it:
its channel is empty and none of its tasks holds a message. Its tasks may go on awaiting the mailbox. -/
def Admits (s : Sys) : Event → Prop
  | .receive t => ∀ sub ∈ s.subscriptions[t]?, (s.outbound sub.session).isSome = true
  | .disconnect x => s.outbound x = some [] ∧
      ∀ sub ∈ s.subscriptions, sub.session = x → sub.task = .receiving ∨ sub.task = .ended
  | _ => True

instance decidableAdmits (s : Sys) : DecidablePred s.Admits := fun event =>
  match event with
  | .receive t => inferInstanceAs (Decidable (∀ sub ∈ s.subscriptions[t]?, _ = _))
  | .disconnect _ => inferInstanceAs (Decidable (_ ∧ ∀ sub ∈ s.subscriptions, _ → _ ∨ _))
  | .subscribe _ | .fail _ | .send _ | .write _ => .isTrue trivial

/-- A task that holds a message has a connected session. -/
def Attended (s : Sys) : Prop :=
  ∀ sub ∈ s.subscriptions, ∀ message, sub.task = .sending message → (s.outbound sub.session).isSome = true

variable {s u : Sys} {message t x : ℕ} {old : Task} {queue : Option (List ℕ)}

lemma mem_of_mem_subscriptions {sub : Subscription} (ht : s.subscriptions[t]? = some ⟨x, old⟩)
    (hs : sub ∈ s.subscriptions) (new : Task) : sub = ⟨x, old⟩ ∨ sub ∈ (s.setTask t x new).subscriptions := by
 obtain ⟨i,hi⟩:=mem_iff_getElem?.mp hs
 by_cases heq : i = t
 · subst heq
   exact .inl (Option.some.inj (hi.symm.trans ht))
 · exact .inr (mem_iff_getElem?.mpr ⟨i,(getElem?_set_ne (Ne.symm heq)).trans hi⟩)

lemma OnItsWay.setTask (h : s.OnItsWay message) (ht : s.subscriptions[t]? = some ⟨x, old⟩)
    (hold : old ≠ .sending message) (new : Task) : (s.setTask t x new).OnItsWay message := by
 obtain ⟨y,queue,hy,hm⟩:=h
 refine ⟨y,queue,hy,hm.imp_right fun hs=>?_⟩
 rcases mem_of_mem_subscriptions ht hs new with heq|hm
 · cases heq
   exact absurd rfl hold
 · exact hm

lemma OnItsWay.setOutbound {before : List ℕ} (h : s.OnItsWay message) (hx : s.outbound x = some before)
    (hn : message ∈ before ∨ ⟨x, .sending message⟩ ∈ s.subscriptions →
      ∃ next, queue = some next ∧ (message ∈ next ∨ ⟨x, .sending message⟩ ∈ s.subscriptions)) :
    (s.setOutbound x queue).OnItsWay message := by
 obtain ⟨y,other,hy,hm⟩:=h
 by_cases heq : y = x
 · subst heq
   cases hx.symm.trans hy
   obtain ⟨next,rfl,hm⟩:=hn hm
   exact ⟨y,next,update_self ..,hm⟩
 · exact ⟨y,other,(update_of_ne heq ..).trans hy,hm⟩

lemma Attended.setTask (h : s.Attended) {new : Task}
    (hn : ∀ message, new = .sending message → (s.outbound x).isSome = true) : (s.setTask t x new).Attended := by
 intro sub hsu message hs
 rcases mem_or_eq_of_mem_set hsu with hsu|rfl
 · exact h sub hsu message hs
 · exact hn message hs

lemma Attended.setOutbound (h : s.Attended) (hx : queue.isSome = true ∨
      ∀ sub ∈ s.subscriptions, sub.session = x → sub.task = .receiving ∨ sub.task = .ended) :
    (s.setOutbound x queue).Attended := by
 intro sub hsu message hs
 by_cases heq : sub.session = x
 · rcases hx with hx|hx
   · simpa [Sys.setOutbound,heq] using hx
   · rcases hx sub hsu heq with hi|hi
     all_goals cases hi.symm.trans hs
 · simpa [Sys.setOutbound,heq] using h sub hsu message hs

lemma LosesNone.of_onItsWay (h : s.LosesNone) (ho : u.owed = s.owed) (hs : u.strays = s.strays)
    (hd : s.delivered ⊆ u.delivered)
    (hw : ∀ message, s.OnItsWay message → message ∈ u.delivered ∨ u.OnItsWay message) : u.LosesNone := by
 refine ⟨fun message hm=>?_,hs.trans h.2⟩
 rw [ho] at hm
 rcases h.1 message hm with hold|hold
 · exact .inl (hd hold)
 · exact hw message hold

lemma inv_step {a : Event} (hs : s.Attended ∧ s.LosesNone) (hok : s.Admits a) (h : s.step a = some u) :
    u.Attended ∧ u.LosesNone := by
 obtain ⟨ha,hk⟩:=hs
 cases a with
 | subscribe x =>
  obtain ⟨hx,rfl⟩:=of_guard h
  refine ⟨fun sub hsu message hse=>?_,hk.of_onItsWay rfl rfl (List.Subset.refl _) ?_⟩
  · rcases mem_append.mp hsu with hsu|hne
    · exact ha sub hsu message hse
    · rwa [mem_singleton.mp hne]
  · rintro message ⟨y,queue,hy,hw⟩
    exact .inr ⟨y,queue,hy,hw.imp_right (mem_append_left _)⟩
 | receive t =>
  simp only [step] at h
  split at h
  · rename_i x ht
    cases h
    obtain ⟨queue,hx⟩:=Option.isSome_iff_exists.mp (hok _ ht)
    have han : (s.subscriptions.any fun sub=>(s.outbound sub.session).isSome) = true :=
     any_eq_true.mpr ⟨_,mem_of_getElem? ht,by rw [hx]; rfl⟩
    refine ⟨Attended.setTask (s := s.obtain x) ha fun _ _=>hok _ ht,fun message hm=>?_,?_⟩
    · simp only [Sys.setTask,Sys.obtain,han,if_true,mem_cons] at hm
      rcases hm with rfl|hold
      · exact .inr ⟨x,queue,hx,.inr (mem_set (List.getElem?_eq_some_iff.mp ht).1 _)⟩
      · refine (hk.1 message hold).imp_right fun hw=>?_
        exact OnItsWay.setTask (s := s.obtain x) hw ht Task.noConfusion _
    · simpa [Sys.setTask,Sys.obtain,hx] using hk.2
  · cases h
 | fail t =>
  simp only [step] at h
  split at h
  · rename_i x ht
    cases h
    refine ⟨ha.setTask nofun,hk.of_onItsWay rfl rfl (List.Subset.refl _) fun _ hw=>?_⟩
    exact .inr (hw.setTask ht Task.noConfusion _)
  · cases h
 | send t =>
  simp only [step] at h
  split at h
  · rename_i x sent ht
    obtain ⟨queue,hx⟩:=Option.isSome_iff_exists.mp (ha _ (mem_of_getElem? ht) sent rfl)
    rw [hx] at h
    obtain ⟨_,rfl⟩:=of_guard h
    refine ⟨(ha.setOutbound (.inl rfl)).setTask nofun,
     hk.of_onItsWay rfl rfl (List.Subset.refl _) fun message hw=>.inr ?_⟩
    by_cases heq : message = sent
    · exact ⟨x,queue ++ [sent],update_self ..,.inl (by simp [heq])⟩
    · have hn : (s.setOutbound x (queue ++ [sent])).OnItsWay message :=
       hw.setOutbound hx fun hm=>⟨_,rfl,hm.imp_left (mem_append_left _)⟩
      exact hn.setTask ht (fun h=>heq (Task.sending.inj h).symm) _
  · cases h
 | write x =>
  simp only [step] at h
  split at h
  · rename_i written rest hx
    cases h
    refine ⟨ha.setOutbound (.inl rfl),hk.of_onItsWay rfl rfl (subset_cons_self _ _) fun message hw=>?_⟩
    by_cases heq : message = written
    · exact .inl (mem_cons.mpr (.inl heq))
    · refine .inr (hw.setOutbound hx fun hm=>⟨rest,rfl,hm.imp_left fun hm=>?_⟩)
      exact (mem_cons.mp hm).resolve_left heq
  · cases h
 | disconnect x =>
  obtain ⟨he,hi⟩:=hok
  obtain ⟨_,rfl⟩:=of_guard h
  refine ⟨ha.setOutbound (.inr hi),hk.of_onItsWay rfl rfl (List.Subset.refl _) fun _ hw=>?_⟩
  refine .inr (hw.setOutbound he fun hm=>?_)
  rcases hm with hm|hm
  · cases hm
  · rcases hi _ hm rfl with hi|hi
    all_goals cases hi

/-- No message is lost as long as the mailbox serves connected sessions and a session goes with nothing waiting for
it. -/
theorem subscriptions_lose_none (as : List Event) (s : Sys) (h : GuardedRuns step Admits start as s) : s.LosesNone :=
 (h.invariant (fun s=>s.Attended ∧ s.LosesNone)
  ⟨nofun,nofun,rfl⟩
  fun _ _ _ hs hok hstep=>inv_step hs hok hstep).2

/-- Two sessions subscribe. The first is served and goes while its task awaits the next message, which the second
gets. -/
def servedThenGone : List Event :=
  [.subscribe 0, .subscribe 1, .receive 0, .send 0, .write 0, .disconnect 0, .receive 1, .send 1, .write 1]

theorem subscriptions_lose_none_two : ∃ s, GuardedRuns step Admits start servedThenGone s ∧ s.outbound 0 = none ∧
    s.subscriptions = [⟨0, .receiving⟩, ⟨1, .receiving⟩] ∧ s.owed = [1, 0] ∧ s.delivered = [1, 0] ∧ s.LosesNone := by
 have hg : GuardedRuns step Admits start servedThenGone _ := guardedRuns_of_execIf rfl
 exact ⟨_,hg,rfl,rfl,rfl,rfl,subscriptions_lose_none _ _ hg⟩

/-- The first session goes, its task takes the next message, and the second session never gets it. -/
theorem message_of_gone_session :
    ∃ s, Runs step start [.subscribe 0, .subscribe 1, .disconnect 0, .receive 0, .send 0] s ∧ s.outbound 0 = none ∧
      s.outbound 1 = some [] ∧ s.subscriptions = [⟨0, .ended⟩, ⟨1, .receiving⟩] ∧ s.owed = [0] ∧ s.delivered = [] ∧
      ¬ s.LosesNone := by
 refine ⟨_,runs_of_exec rfl,rfl,rfl,rfl,rfl,rfl,fun h=>?_⟩
 cases h.2

end Sys

end Enlace.Agent
