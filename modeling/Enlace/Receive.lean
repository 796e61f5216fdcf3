import Enlace.Relay.Tables
import Enlace.Lib.Transition
import Enlace.Coordinator.Envelope

set_option autoImplicit false

/-! A receiver whose `recv` is called any number of times, also at once, and the relays it asks. A
call issues one GET for each of its targets, handles the answers as they come, and drops the other
GETs when it returns. A relay removes a message from its queue before the response travels. -/
namespace Enlace.Receive
open ByteString Fallible Crypto Relay Transition List Function
open Option (all_some any_some map map_eq_some_iff some)

/-- What distinguishes the kinds of mailboxes. A target without a relay mailbox is asked over some other transport; with
no targets the call fails at once. -/
structure Receiver (ρ κ Env Msg : Type) where
  targets : Env → Option (List κ)
  mailbox : κ → Option (ρ × RelayId)
  openMessage : Env → κ → Bytes → Res Unit Msg
  dedupCapacity : ℕ

def httpMailbox (id : Bytes) : Option RelayId := RelayId.parse (hex id)

/-- A response body; one that a relay popped carries the number of the pop. -/
structure Parcel where
  bytes : Bytes
  serial : Option ℕ
  deriving DecidableEq

/-- An error arrives as `none`, an empty answer as `some none`. -/
inductive Get where
  | waiting
  | travelling (b : Parcel)
  | arrived (result : Option (Option Parcel))

structure Task (κ : Type) where
  target : κ
  get : Get

namespace Task

variable {κ : Type}

def travels (t : Task κ) : Option Parcel :=
  match t.get with
  | .travelling b => some b
  | _ => none

def answer (t : Task κ) : Option Parcel :=
  match t.get with
  | .arrived (some (some b)) => some b
  | _ => none

def parcel (t : Task κ) : Option Parcel := t.travels.or t.answer

variable {t : Task κ}

lemma answer_of_waiting (h : t.get = .waiting) : t.answer = none := by rw [answer,h]

lemma parcel_of_waiting (h : t.get = .waiting) : t.parcel = none := by
 rw [parcel,travels,h,answer_of_waiting h]
 rfl

lemma parcel_of_answer {b : Parcel} (h : t.answer = some b) : t.parcel = some b := by
 cases hg : t.get with
 | waiting | travelling c => simp only [answer,hg] at h; cases h
 | arrived result =>
  rw [parcel,h,travels,hg]
  rfl

end Task

def Idle {κ : Type} (tasks : List (Task κ)) : Prop := ∀ t ∈ tasks, t.parcel = none

/-- No GET has got hold of a message that a relay popped. -/
def Unpopped {κ : Type} (tasks : List (Task κ)) : Prop := ∀ t ∈ tasks, ∀ b ∈ t.parcel, b.serial = none

instance {κ : Type} (tasks : List (Task κ)) : Decidable (Unpopped tasks) :=
  inferInstanceAs (Decidable (∀ t ∈ tasks, ∀ b ∈ t.parcel, b.serial = none))

inductive Phase (κ : Type) where
  | outside
  | issuing (wait : ℕ)
  | polling (wait : ℕ) (received : Bool) (tasks : List (Task κ))
  | sleeping (wait : ℕ)

def Phase.tasks {κ : Type} : Phase κ → List (Task κ)
  | .polling _ _ tasks => tasks
  | _ => []

/-- The calls share the `Dedup`; `orphans` are the targets of dropped GETs that relays may still be serving. -/
structure Sys (ρ κ Env Msg : Type) where
  now : ℕ
  relays : ρ → Tables
  env : Env
  dedup : Dedup
  calls : ℕ → Phase κ
  orphans : List κ
  popped : List Parcel
  returned : List (Parcel × Msg)
  suppressed : List Parcel

inductive Act (ρ κ Env : Type) where
  | push (r : ρ) (id : RelayId) (body : Bytes)
  | elsewhere (r : ρ) (id : RelayId)
  | tick (time : ℕ)
  | change (env : Env)
  | call (i wait : ℕ)
  | issue (i : ℕ)
  | pop (i j : ℕ)
  | expire (i j : ℕ)
  | deliver (i j : ℕ)
  | lose (i j : ℕ)
  | foreign (i j : ℕ) (result : Option (Option Bytes))
  | handle (i j : ℕ)
  | finish (i : ℕ)
  | wake (i : ℕ)
  | cancel (i : ℕ)
  | popOrphan (g : κ)

inductive Verdict (Msg : Type) where
  | duplicate
  | unopenable
  | aborts
  | message (msg : Msg)

def Verdict.ends {Msg : Type} : Verdict Msg → Bool
  | .aborts => true
  | .message _ => true
  | _ => false

variable {ρ κ Env Msg : Type}

namespace Sys

variable (s : Sys ρ κ Env Msg)

def enter (i : ℕ) (p : Phase κ) : Sys ρ κ Env Msg := { s with calls := Function.update s.calls i p }

/-- Call `i` ends and its outstanding GETs are dropped. -/
def abandon (i : ℕ) (rest : List (Task κ)) : Sys ρ κ Env Msg :=
  { s.enter i .outside with orphans := s.orphans ++ rest.filterMap fun t =>
      match t.get with
      | .waiting => some t.target
      | _ => none }

def record (bytes : Bytes) : Sys ρ κ Env Msg × Parcel :=
  let b : Parcel := ⟨bytes, some s.popped.length⟩
  ({ s with popped := s.popped ++ [b] }, b)

end Sys

def init (w : Receiver ρ κ Env Msg) (now : ℕ) (relays : ρ → Tables) (env : Env) : Sys ρ κ Env Msg :=
  ⟨now, relays, env, .new w.dedupCapacity, fun _ => .outside, [], [], [], []⟩

section Model

variable (P : Primitives) (cfg : RelayConfig) (w : Receiver ρ κ Env Msg) [DecidableEq ρ] [DecidableEq κ]

def verdict (s : Sys ρ κ Env Msg) (g : κ) (bytes : Bytes) : Verdict Msg :=
  if (s.dedup.observe P bytes).1 then .duplicate else
    match w.openMessage s.env g bytes with
    | .ok msg => .message msg
    | .error (.error _) => .unopenable
    | .error .abort => .aborts

def popFor (s : Sys ρ κ Env Msg) (g : κ) : Option (Sys ρ κ Env Msg × Option Bytes) :=
  (w.mailbox g).map fun m =>
    let p := (s.relays m.1).popMailbox s.now m.2
    ({ s with relays := Function.update s.relays m.1 p.1 }, p.2)

def conclude (s : Sys ρ κ Env Msg) (i : ℕ) (rest : List (Task κ)) (b : Parcel) : Verdict Msg → Sys ρ κ Env Msg
  | .duplicate => { s with suppressed := s.suppressed ++ [b] }
  | .unopenable => { s with suppressed := s.suppressed ++ [b] }
  | .aborts => { s with suppressed := s.suppressed ++ [b] }.abandon i rest
  | .message msg => { s with returned := s.returned ++ [(b, msg)] }.abandon i rest

def handle (s : Sys ρ κ Env Msg) (i wait : ℕ) (received : Bool) (rest : List (Task κ)) (g : κ) :
    Option (Option Parcel) → Sys ρ κ Env Msg
  | none => s.enter i (.polling wait received rest)
  | some none => s.enter i (.polling wait true rest)
  | some (some b) =>
    -- the digest is recorded before the body is opened
    conclude { s.enter i (.polling wait true rest) with dedup := (s.dedup.observe P b.bytes).2 }
      i rest b (verdict P w s g b.bytes)

def taskStep (s : Sys ρ κ Env Msg) (wait : ℕ) (received : Bool) (tasks : List (Task κ)) (t : Task κ) :
    Act ρ κ Env → Option (Sys ρ κ Env Msg)
  | .pop i j =>
    match t.get with
    | .waiting => (popFor w s t.target).map fun p =>
      match p.2 with
      -- the handler finds nothing and goes on waiting
      | none => p.1
      | some bytes =>
        let r := p.1.record bytes
        r.1.enter i (.polling wait received (tasks.set j ⟨t.target, .travelling r.2⟩))
    | _ => none
  | .expire i j =>
    match t.get with
    | .waiting =>
      some (s.enter i (.polling wait received (tasks.set j ⟨t.target, .arrived (some none)⟩)))
    | _ => none
  | .deliver i j =>
    match t.get with
    | .travelling b =>
      some (s.enter i (.polling wait received (tasks.set j ⟨t.target, .arrived (some (some b))⟩)))
    | _ => none
  | .lose i j =>
    match t.get with
    | .arrived _ => none
    | _ => some (s.enter i (.polling wait received (tasks.set j ⟨t.target, .arrived none⟩)))
  | .foreign i j result =>
    match t.get, w.mailbox t.target with
    | .waiting, none =>
      let answer := result.map (Option.map fun bytes => ⟨bytes, none⟩)
      some (s.enter i (.polling wait received (tasks.set j ⟨t.target, .arrived answer⟩)))
    | _, _ => none
  | .handle i j =>
    match t.get with
    | .arrived result => some (handle P w s i wait received (tasks.eraseIdx j) t.target result)
    | _ => none
  | _ => none

def onTask (s : Sys ρ κ Env Msg) (a : Act ρ κ Env) (i j : ℕ) : Option (Sys ρ κ Env Msg) :=
  match s.calls i with
  | .polling wait received tasks => (tasks[j]?).bind fun t => taskStep P w s wait received tasks t a
  | _ => none

def step (s : Sys ρ κ Env Msg) (a : Act ρ κ Env) : Option (Sys ρ κ Env Msg) :=
  match a with
  | .push r id body =>
    some { s with relays := Function.update s.relays r ((s.relays r).pushMailbox cfg s.now id body) }
  | .elsewhere r id =>
    some { s with relays := Function.update s.relays r ((s.relays r).popMailbox s.now id).1 }
  | .tick time => some { s with now := time }
  | .change env => some { s with env := env }
  | .call i wait =>
    match s.calls i with
    | .outside => some (s.enter i (.issuing wait))
    | _ => none
  | .issue i =>
    match s.calls i with
    | .issuing wait =>
      match w.targets s.env with
      | none => some (s.enter i .outside)
      | some targets => some (s.enter i (.polling wait false (targets.map fun g => ⟨g, .waiting⟩)))
    | _ => none
  | .finish i =>
    match s.calls i with
    | .polling wait received [] => some (s.enter i
        (if wait = 0 then .outside else if received then .issuing wait else .sleeping wait))
    | _ => none
  | .wake i =>
    match s.calls i with
    | .sleeping wait => some (s.enter i (.issuing wait))
    | _ => none
  | .cancel i =>
    match s.calls i with
    | .outside => none
    | p => some (s.abandon i p.tasks)
  | .popOrphan g =>
    -- the target stays: a relay may not notice for a while that nobody listens
    if g ∈ s.orphans then
      (popFor w s g).map fun p =>
        match p.2 with
        | none => p.1
        | some bytes => (p.1.record bytes).1
    else none
  | .pop i j => onTask P w s a i j
  | .expire i j => onTask P w s a i j
  | .deliver i j => onTask P w s a i j
  | .lose i j => onTask P w s a i j
  | .foreign i j _ => onTask P w s a i j
  | .handle i j => onTask P w s a i j

def endsCall (s : Sys ρ κ Env Msg) (t : Task κ) : Bool :=
  t.answer.any fun b => (verdict P w s t.target b.bytes).ends

/-- A call ends only when no other GET of it has got hold of a popped message, no response with one is lost, and a relay
that still serves a dropped GET finds no message. -/
def Careful (s : Sys ρ κ Env Msg) : Act ρ κ Env → Prop
  | .handle i j => ((s.calls i).tasks[j]?).any (endsCall P w s) = true → Unpopped ((s.calls i).tasks.eraseIdx j)
  | .lose i j => ((s.calls i).tasks[j]?).all (fun t => (t.parcel.bind Parcel.serial).isNone) = true
  | .cancel i => Unpopped (s.calls i).tasks
  | .popOrphan g => (popFor w s g).all (fun p => p.2.isNone) = true
  | _ => True

instance (s : Sys ρ κ Env Msg) : DecidablePred (Careful P w s)
  | .handle _ _ => inferInstanceAs (Decidable (_ = true → Unpopped _))
  | .lose _ _ => inferInstanceAs (Decidable (_ = true))
  | .cancel _ => inferInstanceAs (Decidable (Unpopped _))
  | .popOrphan _ => inferInstanceAs (Decidable (_ = true))
  | .push .. | .elsewhere .. | .tick .. | .change .. | .call .. | .issue .. | .pop .. | .expire ..
  | .deliver .. | .foreign .. | .finish .. | .wake .. => isTrue trivial

end Model

/-- The message was returned by a call, or suppressed as a duplicate or as unopenable. -/
def Accounted (s : Sys ρ κ Env Msg) (b : Parcel) : Prop :=
  (∃ msg, (b, msg) ∈ s.returned) ∨ b ∈ s.suppressed

def Phase.Holds (f : Task κ → Option Parcel) (p : Phase κ) (b : Parcel) : Prop :=
  ∃ t ∈ p.tasks, f t = some b

def Sys.Holds (f : Task κ → Option Parcel) (s : Sys ρ κ Env Msg) (b : Parcel) : Prop :=
  ∃ i, (s.calls i).Holds f b

lemma holds_parcel {s : Sys ρ κ Env Msg} {b : Parcel} (h : s.Holds Task.parcel b) :
    s.Holds Task.travels b ∨ s.Holds Task.answer b := by
 obtain ⟨i,t,ht,hb⟩:=h
 rcases Option.or_eq_some_iff.mp hb with hb|⟨_,hb⟩
 · exact .inl ⟨i,t,ht,hb⟩
 · exact .inr ⟨i,t,ht,hb⟩

section Tasks

variable {α : Type} {xs : List α} {j : ℕ} {t : α}

lemma exists_mem_set (ht : xs[j]? = some t) (x : α) (Q : α → Prop) :
    (∃ y ∈ xs.set j x, Q y) ↔ Q x ∨ ∃ y ∈ xs.eraseIdx j, Q y := by
 obtain ⟨hj,_⟩:=List.getElem?_eq_some_iff.mp ht
 rw [set_eq_take_append_cons_drop,if_pos hj,eraseIdx_eq_take_drop_succ]
 simp only [mem_append,mem_cons]
 constructor
 · rintro ⟨y,hy|rfl|hy,hQ⟩
   · exact .inr ⟨y,.inl hy,hQ⟩
   · exact .inl hQ
   · exact .inr ⟨y,.inr hy,hQ⟩
 · rintro (hQ|⟨y,hy|hy,hQ⟩)
   · exact ⟨x,.inr (.inl rfl),hQ⟩
   · exact ⟨y,.inl hy,hQ⟩
   · exact ⟨y,.inr (.inr hy),hQ⟩

lemma exists_mem_get (ht : xs[j]? = some t) (Q : α → Prop) : (∃ y ∈ xs, Q y) ↔ Q t ∨ ∃ y ∈ xs.eraseIdx j, Q y := by
 obtain ⟨hj,rfl⟩:=List.getElem?_eq_some_iff.mp ht
 rw [← exists_mem_set ht,set_getElem_self]

end Tasks

structure CallFlow (p q : Phase κ) (new done : Option Parcel) (careful : Prop) : Prop where
  gained : ∀ b, q.Holds Task.parcel b → p.Holds Task.parcel b ∨ new = some b
  settled : ∀ b, done = some b → p.Holds Task.parcel b
  kept : careful → ∀ b, b.serial ≠ none → p.Holds Task.parcel b → q.Holds Task.parcel b ∨ done = some b
  waits : careful → ∀ b, b.serial ≠ none → p.Holds Task.answer b → q.Holds Task.answer b ∨ done = some b

variable {as : List (Act ρ κ Env)} {done new : Option Parcel} {g : κ} {more : List Parcel}

open Receive.Task

namespace CallFlow

variable {p q : Phase κ} {careful : Prop} {j : ℕ} {t x : Task κ}

lemma same (ht : q.tasks = p.tasks) : CallFlow p q none none careful where
 gained b := by
  rw [Phase.Holds,ht]
  exact .inl
 settled _ h := nomatch h
 kept _ b _ := by
  rw [Phase.Holds,← ht]
  exact .inl
 waits _ b _ := by
  rw [Phase.Holds,← ht]
  exact .inl

lemma dropped (hq : Idle q.tasks) (hp : careful → Unpopped p.tasks) : CallFlow p q none none careful where
 gained b := by
  rintro ⟨t,ht,hb⟩
  rw [hq t ht] at hb
  cases hb
 settled _ h := nomatch h
 kept h b hn := by
  rintro ⟨t,ht,hb⟩
  exact absurd (hp h t ht b hb) hn
 waits h b hn := by
  rintro ⟨t,ht,hb⟩
  exact absurd (hp h t ht b (parcel_of_answer hb)) hn

lemma moved (ht : p.tasks[j]? = some t) (hta : q.tasks = p.tasks.set j x)
    (ha : t.answer = none) (hx : ∀ b, x.parcel = some b → t.parcel = some b ∨ new = some b)
    (hk : careful → ∀ b, b.serial ≠ none → t.parcel = some b → x.parcel = some b) : CallFlow p q new none careful where
 gained b := by
  rw [Phase.Holds,Phase.Holds,hta,exists_mem_set ht,exists_mem_get ht]
  rintro (hb|hb)
  · exact (hx b hb).imp_left .inl
  · exact .inl (.inr hb)
 settled _ h := nomatch h
 kept h b hn := by
  rw [Phase.Holds,Phase.Holds,hta,exists_mem_set ht,exists_mem_get ht]
  rintro (hb|hb)
  · exact .inl (.inl (hk h b hn hb))
  · exact .inl (.inr hb)
 waits _ b _ := by
  rw [Phase.Holds,Phase.Holds,hta,exists_mem_set ht,exists_mem_get ht]
  rintro (hb|hb)
  · rw [ha] at hb
    cases hb
  · exact .inl (.inr hb)

lemma erased (ht : p.tasks[j]? = some t) (hd : t.parcel = done)
    (hta : q.tasks = p.tasks.eraseIdx j) : CallFlow p q none done careful where
 gained b := by
  rw [Phase.Holds,Phase.Holds,hta,exists_mem_get ht]
  exact fun hb=>.inl (.inr hb)
 settled b hb := (exists_mem_get ht _).mpr (.inl (hd.trans hb))
 kept _ b _ := by
  rw [Phase.Holds,Phase.Holds,hta,exists_mem_get ht,hd]
  exact Or.symm
 waits _ b _ := by
  rw [Phase.Holds,Phase.Holds,hta,exists_mem_get ht,← hd]
  exact fun hb=>hb.symm.imp_right parcel_of_answer

lemma ended (ht : p.tasks[j]? = some t) (hd : t.parcel = done)
    (hq : Idle q.tasks) (hrest : careful → Unpopped (p.tasks.eraseIdx j)) : CallFlow p q none done careful where
 gained b := by
  rintro ⟨y,hy,hb⟩
  rw [hq y hy] at hb
  cases hb
 settled b hb := (exists_mem_get ht _).mpr (.inl (hd.trans hb))
 kept h b hn := by
  rw [Phase.Holds,exists_mem_get ht]
  rintro (hb|⟨y,hy,hb⟩)
  · exact .inr (hd.symm.trans hb)
  · exact absurd (hrest h y hy b hb) hn
 waits h b hn := by
  rw [Phase.Holds,exists_mem_get ht]
  rintro (hb|⟨y,hy,hb⟩)
  · exact .inr (hd.symm.trans (parcel_of_answer hb))
  · exact absurd (hrest h y hy b (parcel_of_answer hb)) hn

end CallFlow

/-- The same for the whole system, with the pops that relays served for the receiver. -/
structure Flow (s u : Sys ρ κ Env Msg) (new done : Option Parcel) (careful : Prop) : Prop where
  gained : ∀ b, u.Holds Task.parcel b → s.Holds Task.parcel b ∨ new = some b
  numbered : ∀ b, new = some b → b.serial = none ∨ b.serial = some s.popped.length
  popped : ∃ more, u.popped = s.popped ++ more ∧ ∀ b ∈ more, b.serial ≠ none
  settled : ∀ b, done = some b → s.Holds Task.parcel b
  accounted : ∀ b, Accounted u b ↔ Accounted s b ∨ done = some b
  kept : careful → ∀ b, b.serial ≠ none → s.Holds Task.parcel b → u.Holds Task.parcel b ∨ done = some b
  waits : careful → ∀ b, b.serial ≠ none → s.Holds Task.answer b → u.Holds Task.answer b ∨ done = some b
  caught : careful → ∀ b ∈ u.popped, b ∈ s.popped ∨ u.Holds Task.parcel b

open CallFlow

section Flow

variable {s u : Sys ρ κ Env Msg} {i : ℕ} {q : Phase κ} {careful : Prop}

lemma holds_at (i : ℕ) (f : Task κ → Option Parcel) (b : Parcel) :
    s.Holds f b ↔ (s.calls i).Holds f b ∨ ∃ k, k ≠ i ∧ (s.calls k).Holds f b := by
 constructor
 · rintro ⟨k,hk⟩
   by_cases hki : k = i
   · exact .inl (hki ▸ hk)
   · exact .inr ⟨k,hki,hk⟩
 · rintro (hi|⟨k,_,hk⟩)
   · exact ⟨i,hi⟩
   · exact ⟨k,hk⟩

lemma holds_update (hc : u.calls = update s.calls i q) (f : Task κ → Option Parcel)
    (b : Parcel) : u.Holds f b ↔ q.Holds f b ∨ ∃ k, k ≠ i ∧ (s.calls k).Holds f b := by
 rw [holds_at i,hc,update_self]
 refine or_congr_right (exists_congr fun k=>and_congr_right fun hk=>?_)
 rw [update_of_ne hk]

/-- The calls do not see each other's GETs, so a step of one call is a step of the system. -/
theorem CallFlow.lift (h : CallFlow (s.calls i) q new done careful) (hca : u.calls = update s.calls i q)
    (hp : u.popped = s.popped ++ more) (hse : ∀ b ∈ more, b.serial ≠ none)
    (hm : careful → ∀ b ∈ more, q.Holds Task.parcel b)
    (hn : ∀ b, new = some b → b.serial = none ∨ b.serial = some s.popped.length)
    (ha : ∀ b, Accounted u b ↔ Accounted s b ∨ done = some b) : Flow s u new done careful where
 gained b := by
  rw [holds_update hca,holds_at i]
  rintro (hb|hb)
  · exact (h.gained b hb).imp_left .inl
  · exact .inl (.inr hb)
 numbered := hn
 popped := ⟨more,hp,hse⟩
 settled b hb := (holds_at i _ b).mpr (.inl (h.settled b hb))
 accounted := ha
 kept hc b hn := by
  rw [holds_update hca,holds_at i]
  rintro (hb|hb)
  · exact (h.kept hc b hn hb).imp_left .inl
  · exact .inl (.inr hb)
 waits hc b hn := by
  rw [holds_update hca,holds_at i]
  rintro (hb|hb)
  · exact (h.waits hc b hn hb).imp_left .inl
  · exact .inl (.inr hb)
 caught hc b hb := by
  rw [hp] at hb
  rw [holds_update hca]
  exact (mem_append.mp hb).imp_right fun hb=>.inl (hm hc b hb)

lemma accounted_same (hr : u.returned = s.returned) (hs : u.suppressed = s.suppressed)
    (b : Parcel) : Accounted u b ↔ Accounted s b ∨ (none : Option Parcel) = some b := by
 rw [Accounted,hr,hs]
 exact (or_iff_left (by simp)).symm

variable {b : Parcel}

lemma accounted_suppressed (hr : u.returned = s.returned)
    (hs : u.suppressed = s.suppressed ++ [b]) (c : Parcel) :
    Accounted u c ↔ Accounted s c ∨ some b = some c := by
 rw [Accounted,Accounted,hr,hs,mem_append,mem_singleton, some.injEq,or_assoc,eq_comm (a := c)]

lemma accounted_returned {msg : Msg} (hr : u.returned = s.returned ++ [(b, msg)])
    (hs : u.suppressed = s.suppressed) (c : Parcel) : Accounted u c ↔ Accounted s c ∨ some b = some c := by
 have hme : (∃ m, (c,m) ∈ u.returned) ↔ (∃ m, (c,m) ∈ s.returned) ∨ b = c := by
  rw [hr]
  constructor
  · rintro ⟨m,hm⟩
    rcases mem_append.mp hm with hm|hm
    · exact .inl ⟨m,hm⟩
    · exact .inr (Prod.mk.inj (mem_singleton.mp hm)).1.symm
  · rintro (⟨m,hm⟩|rfl)
    · exact ⟨m,mem_append_left _ hm⟩
    · exact ⟨msg,mem_append_right _ mem_cons_self⟩
 rw [Accounted,hme,hs,some.injEq]
 exact or_right_comm

lemma Flow.aside (hc : u.calls = s.calls) (hp : u.popped = s.popped ++ more)
    (hse : ∀ b ∈ more, b.serial ≠ none) (hm : careful → more = []) (hr : u.returned = s.returned)
    (hs : u.suppressed = s.suppressed) :
    Flow s u none none careful := by
 refine lift (i := 0) (q := s.calls 0) (.same rfl) ?_ hp hse ?_ nofun
  (accounted_same hr hs)
 · rw [update_eq_self,hc]
 · intro h b hb
   rw [hm h] at hb
   cases hb

lemma Flow.enter (h : CallFlow (s.calls i) q none none careful) : Flow s (s.enter i q) none none careful :=
 h.lift rfl (append_nil _).symm nofun nofun nofun
  (accounted_same rfl rfl)

lemma Flow.phase {p : Phase κ} (hc : s.calls i = p) (hp : p.tasks = [])
    (hq : Idle q.tasks) : Flow s (s.enter i q) none none careful := by
 refine .enter (.dropped hq fun _ t ht=>?_)
 rw [hc,hp] at ht
 cases ht

lemma CallFlow.settles (h : CallFlow (s.calls i) q none (some b) careful)
    (hc : u.calls = update s.calls i q) (hp : u.popped = s.popped)
    (ha : ∀ c, Accounted u c ↔ Accounted s c ∨ some b = some c) : Flow s u none (some b) careful :=
 h.lift hc (hp.trans (append_nil _).symm) nofun nofun
  nofun ha

lemma flow_conclude {v : Sys ρ κ Env Msg} {t : Task κ} {j wait : ℕ}
    {V : Verdict Msg} (ht : (s.calls i).tasks[j]? = some t) (hpa : t.parcel = some b)
    (hc : v.calls = update s.calls i (.polling wait true ((s.calls i).tasks.eraseIdx j)))
    (hp : v.popped = s.popped) (hr : v.returned = s.returned) (hs : v.suppressed = s.suppressed)
    (he : careful → V.ends = true → Unpopped ((s.calls i).tasks.eraseIdx j)) :
    Flow s (conclude v i ((s.calls i).tasks.eraseIdx j) b V) none (some b) careful := by
 have hg : CallFlow (s.calls i) (.polling wait true ((s.calls i).tasks.eraseIdx j)) none (some b)
   careful := erased ht hpa rfl
 have he : V.ends = true → CallFlow (s.calls i) .outside none (some b) careful :=
  fun h=>.ended ht hpa nofun fun hca=>he hca h
 have ho : update v.calls i .outside = update s.calls i .outside := by
  rw [hc,update_idem]
 have ha : v.suppressed ++ [b] = s.suppressed ++ [b] := by rw [hs]
 cases V with
 | duplicate | unopenable => exact hg.settles hc hp (accounted_suppressed hr ha)
 | aborts => exact (he rfl).settles ho hp (accounted_suppressed hr ha)
 | message msg =>
  have ha : v.returned ++ [(b,msg)] = s.returned ++ [(b,msg)] := by rw [hr]
  exact (he rfl).settles ho hp (accounted_returned ha hs)

end Flow

section Steps

variable {P : Primitives} {cfg : RelayConfig} {w : Receiver ρ κ Env Msg} [DecidableEq ρ]
  {s u : Sys ρ κ Env Msg} {i j : ℕ}

lemma onTask_eq_some {a : Act ρ κ Env} (h : onTask P w s a i j = some u) :
    ∃ wait rec t, (s.calls i).tasks[j]? = some t ∧ taskStep P w s wait rec (s.calls i).tasks t a = some u := by
 unfold onTask at h
 split at h
 · rename_i wait rec tasks hc
   obtain ⟨t,ht,hs⟩:=Option.bind_eq_some_iff.mp h
   rw [hc]
   exact ⟨wait,rec,t,ht,hs⟩
 · cases h

lemma popFor_eq_some {p : Sys ρ κ Env Msg × Option Bytes} (h : popFor w s g = some p) :
    ∃ relays, p.1 = { s with relays := relays } := by
 obtain ⟨m,_,rfl⟩:=map_eq_some_iff.mp h
 exact ⟨_,rfl⟩

lemma flow_pop (h : onTask P w s (.pop i j) i j = some u) : ∃ new, Flow s u new none (Careful P w s (.pop i j)) := by
 obtain ⟨wait,rec,t,ht,hs⟩:=onTask_eq_some h
 cases hg : t.get with
 | travelling b | arrived result => simp only [taskStep,hg] at hs; cases hs
 | waiting =>
  simp only [taskStep,hg] at hs
  obtain ⟨p,hp,hu⟩:=map_eq_some_iff.mp hs
  obtain ⟨relays,hr⟩:=popFor_eq_some hp
  cases hbo : p.2 with
  | none =>
   rw [hbo] at hu
   rw [← hu,hr]
   exact ⟨none,.aside rfl (append_nil _).symm nofun (fun _=>rfl) rfl rfl⟩
  | some bytes =>
   rw [hbo] at hu
   rw [← hu,hr]
   let x : Task κ := ⟨t.target,.travelling ⟨bytes,some s.popped.length⟩⟩
   refine ⟨x.parcel,lift (i := i) (.moved ht rfl (answer_of_waiting hg)
    (fun _ hb=>.inr hb) ?_) rfl rfl ?_ ?_ ?_ (accounted_same rfl rfl)⟩
   · intro _ b _ hb
     rw [parcel_of_waiting hg] at hb
     cases hb
   · intro b hb
     rw [mem_singleton.mp hb]
     exact nofun
   · intro _ b hb
     rw [mem_singleton.mp hb]
     exact (exists_mem_set ht _ _).mpr (.inl rfl)
   · rintro b ⟨⟩
     exact .inr rfl

lemma flow_expire (h : onTask P w s (.expire i j) i j = some u) :
    Flow s u none none (Careful P w s (.expire i j)) := by
 obtain ⟨wait,rec,t,ht,hs⟩:=onTask_eq_some h
 cases hg : t.get with
 | travelling b | arrived result => simp only [taskStep,hg] at hs; cases hs
 | waiting =>
  simp only [taskStep,hg] at hs
  rw [← some.inj hs]
  refine .enter (.moved ht rfl (answer_of_waiting hg) nofun fun _ b _ hb=>?_)
  rw [parcel_of_waiting hg] at hb
  cases hb

lemma flow_deliver (h : onTask P w s (.deliver i j) i j = some u) :
    Flow s u none none (Careful P w s (.deliver i j)) := by
 obtain ⟨wait,rec,t,ht,hs⟩:=onTask_eq_some h
 cases hg : t.get with
 | waiting | arrived result => simp only [taskStep,hg] at hs; cases hs
 | travelling b =>
  simp only [taskStep,hg] at hs
  rw [← some.inj hs]
  have ha : t.answer = none := by rw [answer,hg]
  have hp : t.parcel = some b := by rw [parcel,travels,hg]; rfl
  exact .enter (.moved ht rfl ha (fun c hc=>.inl (hp.trans hc)) fun _ c _ hc=>hp.symm.trans hc)

lemma flow_lose (h : onTask P w s (.lose i j) i j = some u) : Flow s u none none (Careful P w s (.lose i j)) := by
 obtain ⟨wait,rec,t,ht,hs⟩:=onTask_eq_some h
 have hl : t.answer = none ∧ u = s.enter i
   (.polling wait rec ((s.calls i).tasks.set j ⟨t.target,.arrived none⟩)) := by
  cases hg : t.get with
  | arrived result => simp only [taskStep,hg] at hs; cases hs
  | waiting | travelling b =>
   simp only [taskStep,hg] at hs
   exact ⟨by rw [answer,hg],(some.inj hs).symm⟩
 rw [hl.2]
 refine .enter (.moved ht rfl hl.1 nofun fun hc b hn hb=>absurd ?_ hn)
 simp only [Careful,ht,all_some,hb,Option.bind_some,Option.isNone_iff_eq_none] at hc
 exact hc

lemma flow_foreign {result : Option (Option Bytes)} (h : onTask P w s (.foreign i j result) i j = some u) :
    ∃ new, Flow s u new none (Careful P w s (.foreign i j result)) := by
 obtain ⟨wait,rec,t,ht,hs⟩:=onTask_eq_some h
 cases hg : t.get with
 | travelling b | arrived result => simp only [taskStep,hg] at hs; cases hs
 | waiting =>
  cases hm : w.mailbox t.target with
  | some m => simp only [taskStep,hg,hm] at hs; cases hs
  | none =>
   simp only [taskStep,hg,hm] at hs
   rw [← some.inj hs]
   have hse : ∀ b, parcel ⟨t.target,.arrived (result.map (map fun bytes=>
     ⟨bytes,none⟩))⟩ = some b → b.serial = none := by
    intro b hb
    match result, hb with
    | some (some bytes), hb => rw [← some.inj hb]
   refine ⟨_,lift (i := i) (.moved ht rfl (answer_of_waiting hg)
    (fun _ hb=>.inr hb) ?_) rfl (append_nil _).symm nofun nofun
    (fun b hb=>.inl (hse b hb)) (accounted_same rfl rfl)⟩
   intro _ b _ hb
   rw [parcel_of_waiting hg] at hb
   cases hb

lemma flow_handle (h : onTask P w s (.handle i j) i j = some u) :
    ∃ done, Flow s u none done (Careful P w s (.handle i j)) := by
 obtain ⟨wait,rec,t,ht,hs⟩:=onTask_eq_some h
 cases hg : t.get with
 | waiting | travelling b => simp only [taskStep,hg] at hs; cases hs
 | arrived result =>
  simp only [taskStep,hg] at hs
  rw [← some.inj hs]
  match result with
  | none | some none =>
   have hp : t.parcel = none := by rw [parcel,travels,answer,hg]; rfl
   exact ⟨none,.enter (.erased ht hp rfl)⟩
  | some (some b) =>
   have ha : t.answer = some b := by rw [answer,hg]
   have hp : t.parcel = some b := parcel_of_answer ha
   have he : Careful P w s (.handle i j) → (verdict P w s t.target b.bytes).ends = true →
     Unpopped ((s.calls i).tasks.eraseIdx j) := by
    intro hc he
    refine hc ?_
    rw [ht,any_some,endsCall,ha]
    exact he
   exact ⟨some b,flow_conclude ht hp rfl rfl rfl rfl he⟩

variable [DecidableEq κ]

lemma flow_popOrphan (h : step P cfg w s (.popOrphan g) = some u) :
    Flow s u none none (Careful P w s (.popOrphan g)) := by
 simp only [step] at h
 split at h
 · obtain ⟨p,hp,hu⟩:=map_eq_some_iff.mp h
   obtain ⟨relays,hr⟩:=popFor_eq_some hp
   cases hb : p.2 with
   | none =>
    rw [hb] at hu
    rw [← hu,hr]
    exact .aside rfl (append_nil _).symm nofun (fun _=>rfl) rfl rfl
   | some bytes =>
    rw [hb] at hu
    rw [← hu,hr]
    refine .aside rfl rfl (fun b hb=>?_) (fun hc=>?_) rfl rfl
    · rw [mem_singleton.mp hb]
      exact nofun
    · simp only [Careful,hp,all_some,hb,Option.isNone_some] at hc
      cases hc
 · cases h

lemma flow_issue (h : step P cfg w s (.issue i) = some u) : Flow s u none none (Careful P w s (.issue i)) := by
 simp only [step] at h
 split at h
 · rename_i wait hc
   split at h
   · rw [← some.inj h]
     exact Flow.phase hc rfl nofun
   · rw [← some.inj h]
     refine Flow.phase hc rfl fun t ht=>?_
     obtain ⟨g,_,rfl⟩:=mem_map.mp ht
     rfl
 · cases h

lemma flow_cancel (h : step P cfg w s (.cancel i) = some u) : Flow s u none none (Careful P w s (.cancel i)) := by
 simp only [step] at h
 split at h
 · cases h
 · rw [← some.inj h]
   exact lift (i := i) (.dropped (q := .outside) nofun id) rfl
    (append_nil _).symm nofun nofun nofun
    (accounted_same rfl rfl)

lemma flow_step {a : Act ρ κ Env} (h : step P cfg w s a = some u) :
    ∃ new done, Flow s u new done (Careful P w s a) := by
 have aside : ∀ {v : Sys ρ κ Env Msg}, v.calls = s.calls → v.popped = s.popped →
   v.returned = s.returned → v.suppressed = s.suppressed →
   ∃ new done, Flow s v new done (Careful P w s a) :=
  fun hca hp hr hs=>⟨none,none,.aside hca
   (hp.trans (append_nil _).symm) nofun (fun _=>rfl) hr hs⟩
 cases a with
 | push r id body | elsewhere r id | tick time | change env => exact some.inj h ▸ aside rfl rfl rfl rfl
 | call i wait =>
  simp only [step] at h
  split at h
  · rename_i hc
    rw [← some.inj h]
    exact ⟨none,none,Flow.phase hc rfl nofun⟩
  · cases h
 | finish i =>
  simp only [step] at h
  split at h
  · rename_i wait received hc
    rw [← some.inj h]
    refine ⟨none,none,Flow.phase hc rfl ?_⟩
    split_ifs <;> exact nofun
  · cases h
 | wake i =>
  simp only [step] at h
  split at h
  · rename_i wait hc
    rw [← some.inj h]
    exact ⟨none,none,Flow.phase hc rfl nofun⟩
  · cases h
 | issue i => exact ⟨none,none,flow_issue h⟩
 | cancel i => exact ⟨none,none,flow_cancel h⟩
 | popOrphan g => exact ⟨none,none,flow_popOrphan h⟩
 | expire i j => exact ⟨none,none,flow_expire h⟩
 | deliver i j => exact ⟨none,none,flow_deliver h⟩
 | lose i j => exact ⟨none,none,flow_lose h⟩
 | pop i j =>
  obtain ⟨new,hf⟩:=flow_pop h
  exact ⟨new,none,hf⟩
 | foreign i j result =>
  obtain ⟨new,hf⟩:=flow_foreign h
  exact ⟨new,none,hf⟩
 | handle i j =>
  obtain ⟨done,hf⟩:=flow_handle h
  exact ⟨none,done,hf⟩

end Steps

section Runs

variable {P : Primitives} {cfg : RelayConfig} {w : Receiver ρ κ Env Msg} [DecidableEq ρ]
  [DecidableEq κ] {s u : Sys ρ κ Env Msg} {a : Act ρ κ Env} {b : Parcel}

def InHand (s : Sys ρ κ Env Msg) (b : Parcel) : Prop := Accounted s b ∨ s.Holds Task.parcel b

omit [DecidableEq ρ] [DecidableEq κ] in
lemma Flow.accounted_or {careful before after : Prop} (hf : Flow s u new done careful)
    (hb : Accounted s b ∨ before) (hk : before → after ∨ done = some b) : Accounted u b ∨ after := by
 rw [hf.accounted]
 rcases hb with hb|hb
 · exact .inl (.inl hb)
 · exact (hk hb).symm.imp_left .inr

lemma inHand_step (hn : b.serial ≠ none) (hc : Careful P w s a) (h : step P cfg w s a = some u) (hb : InHand s b) :
    InHand u b := by
 obtain ⟨new,done,hf⟩:=flow_step h
 exact hf.accounted_or hb (hf.kept hc b hn)

lemma answered_step (hn : b.serial ≠ none) (hc : Careful P w s a) (h : step P cfg w s a = some u)
    (hb : Accounted s b ∨ s.Holds Task.answer b) : Accounted u b ∨ u.Holds Task.answer b := by
 obtain ⟨new,done,hf⟩:=flow_step h
 exact hf.accounted_or hb (hf.waits hc b hn)

lemma popped_inHand {s₀ : Sys ρ κ Env Msg} (hs₀ : s₀.popped = [])
    (h : GuardedRuns (step P cfg w) (Careful P w) s₀ as s) : ∀ b ∈ s.popped, b.serial ≠ none ∧ InHand s b := by
 refine h.invariant (fun s=>∀ b ∈ s.popped, b.serial ≠ none ∧ InHand s b) ?_ ?_
 · intro b hb
   rw [hs₀] at hb
   cases hb
 · intro s a u hs hc hu b hb
   obtain ⟨new,done,hf⟩:=flow_step hu
   obtain ⟨more,hm,hse⟩:=hf.popped
   have hn : b.serial ≠ none := (mem_append.mp (hm ▸ hb)).elim (fun hb=>(hs b hb).1) (hse b)
   rcases hf.caught hc b hb with hb|hb
   · exact ⟨hn,inHand_step hn hc hu (hs b hb).2⟩
   · exact ⟨hn,.inr hb⟩

/-- What an infinite run is owed: no response travels forever, and no answer waits forever for its call. -/
structure Fair (p : Path (step P cfg w) (Careful P w)) : Prop where
  arrives : ∀ n b, ∃ k, n ≤ k ∧ ¬ (p.state k).Holds Task.travels b
  polled : ∀ n b, ∃ k, n ≤ k ∧ ¬ (p.state k).Holds Task.answer b

lemma Fair.of_rest {p : Path (step P cfg w) (Careful P w)} {N : ℕ}
    (hl : ∀ n, N ≤ n → p.state n = s) (hi : ∀ i, (s.calls i).tasks = []) : Fair p := by
 have hn : ∀ f : Task κ → Option Parcel, ∀ n b, ∃ k, n ≤ k ∧ ¬ (p.state k).Holds f b := by
  intro f n b
  refine ⟨max n N,le_max_left _ _,?_⟩
  rw [hl _ (le_max_right _ _)]
  rintro ⟨i,t,ht,_⟩
  rw [hi i] at ht
  cases ht
 exact ⟨hn _,hn _⟩

/-- In every careful and fair run, every message popped for the receiver is returned or suppressed in the end. -/
theorem popped_accounted (p : Path (step P cfg w) (Careful P w)) (hf : Fair p) {now : ℕ}
    {relays : ρ → Tables} {env : Env} (hst : p.state 0 = init w now relays env) (n : ℕ)
    (b : Parcel) (hb : b ∈ (p.state n).popped) : ∃ k, n ≤ k ∧ Accounted (p.state k) b := by
 obtain ⟨as,hr⟩:=p.runs 0 n
 rw [Nat.zero_add,hst] at hr
 obtain ⟨hn,hin⟩:=popped_inHand rfl hr b hb
 -- the response arrives
 obtain ⟨k,hk,ht⟩:=hf.arrives n b
 have hin : InHand (p.state k) b := p.invariant (InHand · b) hk hin fun _ _ _ hs hc hu=>inHand_step hn hc hu hs
 have ha : Accounted (p.state k) b ∨ (p.state k).Holds answer b :=
  hin.imp_right fun h=>(holds_parcel h).resolve_left ht
 -- and the loop comes to it
 obtain ⟨l,hl,hp⟩:=hf.polled k b
 have he:=p.invariant (fun s=>Accounted s b ∨ s.Holds answer b) hl ha
  fun _ _ _ hs hc hu=>answered_step hn hc hu hs
 exact ⟨l,hk.trans hl,he.resolve_right hp⟩

def Lost (s : Sys ρ κ Env Msg) (b : Parcel) : Prop :=
  (∃ n, b.serial = some n ∧ n < s.popped.length) ∧ ¬ InHand s b

lemma lost_step (hb : Lost s b) (h : step P cfg w s a = some u) : Lost u b := by
 obtain ⟨⟨n,hs,hn⟩,hg⟩:=hb
 obtain ⟨new,done,hf⟩:=flow_step h
 obtain ⟨more,hm,_⟩:=hf.popped
 refine ⟨⟨n,hs,?_⟩,?_⟩
 · rw [hm,length_append]
   omega
 · rintro (ha|hc)
   · rcases (hf.accounted b).mp ha with ha|hd
     · exact hg (.inl ha)
     · exact hg (.inr (hf.settled b hd))
   · rcases hf.gained b hc with hc|hne
     · exact hg (.inr hc)
     · have hnu:=hf.numbered b hne
       rw [hs,some.injEq] at hnu
       rcases hnu with hnu|hnu
       · cases hnu
       · omega

lemma lost_runs (hb : Lost s b) (h : Runs (step P cfg w) s as u) : Lost u b :=
 h.invariant (Lost · b) hb fun _ _ _ hs hu=>lost_step hs hu

end Runs
end Enlace.Receive

/-! Mailboxes of the shared-seed mode: `Coordinator::mailbox_recv`. -/
namespace Enlace.Coordinator
open ByteString Fallible WireFormat Crypto Kdf Receive

structure RecvMessage (P : Primitives) where
  payload : Bytes
  via : TransportKind
  signedBy : Option (VerifyingKey P)
  deriving DecidableEq

variable {P : Primitives} (rmp : Codec SignedInner) (c : Coordinator P)

/-- A payload that does not open, or that carries a version, is dropped. -/
def openMessage (name : Bytes) (via : TransportKind) (sealed : Bytes) : Res Unit (RecvMessage P) := do
  let opened ← mapErr (fun _ => ()) (c.openSealed rmp .mailbox name sealed)
  ensure opened.version.isNone ()
  return ⟨opened.payload, via, opened.signedBy⟩

/-- One GET for each transport; `relayOf` says which relay an HTTP transport asks. -/
def mailboxRecv (name : Bytes) {ρ : Type} (relayOf : Fin c.transports.length → ρ) :
    Receiver ρ (Fin c.transports.length) Unit (RecvMessage P) where
  targets _ :=
    let ids := c.transports.mapM fun kind => transportChannelId P c.seed kind .mailbox name
    (toOption ids).map fun _ => List.finRange c.transports.length
  mailbox i := match c.transports.get i with
    | .http => do
      let id ← toOption (transportChannelId P c.seed .http .mailbox name)
      return (relayOf i, ← httpMailbox id)
    | _ => none
  openMessage _ i sealed := c.openMessage rmp name (c.transports.get i) sealed
  dedupCapacity := c.dedupBuffer

end Enlace.Coordinator
