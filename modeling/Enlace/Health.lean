import Enlace.Crypto
import Mathlib.Data.List.Chain
import Mathlib.Data.List.DropRight

set_option autoImplicit false

/-! The health of a transport: the machine that counts successes and failures, the log of its
transitions, and the snapshot that a report shows of it. -/
namespace Enlace
open Kdf List

inductive HealthState where
  | healthy
  | degraded
  | down
  deriving DecidableEq

inductive HealthTransitionKind where
  | becameHealthy
  | becameDegraded
  | becameDown
  deriving DecidableEq

structure HealthTransition where
  kind : HealthTransitionKind
  fromState : HealthState
  toState : HealthState
  time : ℕ
  deriving DecidableEq

structure EndpointHealth where
  endpoint : String
  state : HealthState
  deriving DecidableEq

structure TransportHealth where
  kind : TransportKind
  configured : Bool
  state : HealthState
  consecutiveSuccesses : ℕ
  consecutiveFailures : ℕ
  lastSuccess : Option ℕ
  lastFailure : Option ℕ
  transitions : List HealthTransition
  endpoints : List EndpointHealth
  deriving DecidableEq

/-- Times and durations are counts of nanoseconds. -/
structure TrackedTransport where
  health : TransportHealth
  pollInterval : Option ℕ
  lastSuccessInstant : Option ℕ
  deriving DecidableEq

def HealthState.severity : HealthState → ℕ
  | .healthy => 0
  | .degraded => 1
  | .down => 2

/-- `u32::saturating_add(1)` -/
def u32Succ (n : ℕ) : ℕ := min (n + 1) (2 ^ 32 - 1)

/-- `Duration::MAX`: all the seconds of a `u64` and a nanosecond short of one more. -/
def durationMax : ℕ := (2 ^ 64 - 1) * 10 ^ 9 + 999999999

/-- `Duration::from_mins(5)` -/
def staleAfter : ℕ := 5 * 60 * 10 ^ 9

inductive HealthCall where
  | success (wall instant changed : ℕ)
  | failure (wall changed : ℕ)
  deriving DecidableEq

def HealthCall.isSuccess : HealthCall → Bool
  | .success .. => true
  | .failure .. => false

def HealthCall.isFailure (c : HealthCall) : Bool := !c.isSuccess

namespace TrackedTransport

def new (kind : TransportKind) (pollInterval : Option ℕ) (endpoints : List EndpointHealth) : TrackedTransport where
  health :=
    { kind, configured := true, state := .healthy, consecutiveSuccesses := 0, consecutiveFailures := 0,
      lastSuccess := none, lastFailure := none, transitions := [], endpoints }
  pollInterval := pollInterval
  lastSuccessInstant := none

def overlay (t : TrackedTransport) (now : ℕ) : HealthState :=
  match t.lastSuccessInstant with
  | none => t.health.state
  | some lastSuccess =>
    let age := now - lastSuccess
    if staleAfter ≤ age then .down
    else if t.pollInterval.any fun interval => decide (min (interval * 2) durationMax ≤ age) then .degraded
    else t.health.state

def snapshot (t : TrackedTransport) (now : ℕ) : TransportHealth :=
  { t.health with
    state := t.overlay now
    endpoints := t.health.endpoints.map fun endpoint => { endpoint with state := t.overlay now } }

def transition (t : TrackedTransport) (toState : HealthState) (changed : ℕ) : TrackedTransport :=
  if t.health.state = toState then t
  else
    let kept := if t.health.transitions.length = 64 then t.health.transitions.tail else t.health.transitions
    let kind : HealthTransitionKind := match toState with
      | .healthy => .becameHealthy
      | .degraded => .becameDegraded
      | .down => .becameDown
    { t with health := { t.health with
      state := toState
      transitions := kept ++ [⟨kind, t.health.state, toState, changed⟩] } }

def recordSuccess (t : TrackedTransport) (wall instant changed : ℕ) : TrackedTransport :=
  let t : TrackedTransport := { t with
      lastSuccessInstant := some instant
      health := { t.health with
        lastSuccess := some wall
        consecutiveSuccesses := u32Succ t.health.consecutiveSuccesses
        consecutiveFailures := 0 } }
  match t.health.state with
  | .down => t.transition .degraded changed
  | .degraded => if 3 ≤ t.health.consecutiveSuccesses then t.transition .healthy changed else t
  | .healthy => t

def recordFailure (t : TrackedTransport) (wall changed : ℕ) : TrackedTransport :=
  let t : TrackedTransport := { t with health := { t.health with
      lastFailure := some wall
      consecutiveFailures := u32Succ t.health.consecutiveFailures
      consecutiveSuccesses := 0 } }
  match t.health.state with
  | .healthy => t.transition .degraded changed
  | .degraded => if 3 ≤ t.health.consecutiveFailures then t.transition .down changed else t
  | .down => t

def record (t : TrackedTransport) : HealthCall → TrackedTransport
  | .success wall instant changed => t.recordSuccess wall instant changed
  | .failure wall changed => t.recordFailure wall changed

def recordAll (t : TrackedTransport) (calls : List HealthCall) : TrackedTransport := calls.foldl record t

variable (t : TrackedTransport)

lemma recordAll_concat (calls : List HealthCall) (c : HealthCall) :
    t.recordAll (calls ++ [c]) = (t.recordAll calls).record c :=
 foldl_concat _ _ _ _

section Snapshot

def Masked (t : TrackedTransport) (now : ℕ) : Prop :=
  t.health.state = .down ∧ ∃ lastSuccess ∈ t.lastSuccessInstant, ∃ interval ∈ t.pollInterval,
    min (interval * 2) durationMax ≤ now - lastSuccess ∧ now - lastSuccess < staleAfter

lemma severity_le_overlay_iff (now : ℕ) : t.health.state.severity ≤ (t.overlay now).severity ↔ ¬ t.Masked now := by
 unfold overlay Masked
 cases t.lastSuccessInstant with
 | none => simp
 | some lastSuccess =>
  simp only [Option.mem_some_iff,exists_eq_left']
  by_cases hs : staleAfter ≤ now - lastSuccess
  · rw [if_pos hs]
    refine ⟨fun _ h=>?_,fun _=>?_⟩
    · obtain ⟨_,_,_,_,hlt⟩:=h
      omega
    · cases t.health.state <;> decide
  · rw [if_neg hs]
    have hlt : now - lastSuccess < staleAfter := Nat.lt_of_not_le hs
    cases hp : t.pollInterval with
    | none => simp
    | some interval =>
     simp only [Option.any_some,decide_eq_true_eq,Option.mem_some_iff,exists_eq_left',hlt,and_true]
     split
     · rename_i ha
       cases t.health.state <;> simp [HealthState.severity,ha]
     · rename_i ha
       simp [ha]

lemma severity_le_snapshot_iff (now : ℕ) : (t.health.state.severity ≤ (t.snapshot now).state.severity ∧
      ∀ ep ∈ (t.snapshot now).endpoints, t.health.state.severity ≤ ep.state.severity) ↔
    ¬ t.Masked now := by
 rw [← severity_le_overlay_iff]
 refine ⟨And.left,fun h=>⟨h,fun ep hm=>?_⟩⟩
 obtain ⟨_,_,rfl⟩:=mem_map.mp hm
 exact h

end Snapshot

section Streaks
open HealthCall

def streak (p : HealthCall → Bool) (calls : List HealthCall) : ℕ := (calls.rtakeWhile p).length

lemma streak_concat (p : HealthCall → Bool) (calls : List HealthCall) (c : HealthCall) :
    streak p (calls ++ [c]) = if p c then streak p calls + 1 else 0 := by
 unfold streak
 rw [rtakeWhile_concat]
 split <;> simp

lemma streak_append {p : HealthCall → Bool} (before : List HealthCall) {run : List HealthCall}
    (h : ∀ c ∈ run, p c = true) : streak p (before ++ run) = streak p before + run.length := by
 induction run using reverseRecOn with
 | nil => simp
 | append_singleton run c ih =>
  rw [← append_assoc,streak_concat,if_pos (h c (by simp)),ih fun d hd=>h d (by simp [hd])]
  simp only [length_append,length_singleton,Nat.add_assoc]

lemma streak_rdropWhile (p : HealthCall → Bool) (calls : List HealthCall) : streak p (calls.rdropWhile p) = 0 := by
 rw [streak,length_eq_zero_iff,rtakeWhile_eq_nil_iff]
 exact rdropWhile_last_not p calls

end Streaks

section Machine
open HealthCall

structure Tracks (calls : List HealthCall) (h : TransportHealth) : Prop where
  down : h.state = .down ↔ 3 ≤ streak isFailure calls
  healthy : h.state = .healthy ↔ calls.all isSuccess = true ∨ 3 ≤ streak isSuccess calls
  exclusive : streak isSuccess calls = 0 ∨ streak isFailure calls = 0
  unbroken : calls.all isSuccess = true → streak isFailure calls = 0
  successes : h.consecutiveSuccesses = min (streak isSuccess calls) (2 ^ 32 - 1)
  failures : h.consecutiveFailures = min (streak isFailure calls) (2 ^ 32 - 1)

def target (succeeded : Bool) (state : HealthState) (successes failures : ℕ) : Option HealthState :=
  match succeeded, state with
  | true, .down => some .degraded
  | true, .degraded => if 3 ≤ successes then some .healthy else none
  | true, .healthy => none
  | false, .healthy => some .degraded
  | false, .degraded => if 3 ≤ failures then some .down else none
  | false, .down => none

lemma record_eq (c : HealthCall) : ∃ (v : TrackedTransport) (changed : ℕ),
    v.health.state = t.health.state ∧ v.health.transitions = t.health.transitions ∧
    v.health.consecutiveSuccesses = (if c.isSuccess then u32Succ t.health.consecutiveSuccesses else 0) ∧
    v.health.consecutiveFailures = (if c.isFailure then u32Succ t.health.consecutiveFailures else 0) ∧
    t.record c = (target c.isSuccess t.health.state v.health.consecutiveSuccesses
      v.health.consecutiveFailures).elim v fun toState => v.transition toState changed := by
 cases c with
 | success wall instant changed =>
  refine ⟨⟨{ t.health with
   lastSuccess := some wall
   consecutiveSuccesses := u32Succ t.health.consecutiveSuccesses
   consecutiveFailures := 0 },t.pollInterval,some instant⟩,changed,rfl,rfl,rfl,rfl,?_⟩
  simp only [record,recordSuccess,isSuccess]
  cases t.health.state with
  | healthy => rfl
  | degraded =>
   simp only [target]
   split <;> rfl
  | down => rfl
 | failure wall changed =>
  refine ⟨⟨{ t.health with
   lastFailure := some wall
   consecutiveFailures := u32Succ t.health.consecutiveFailures
   consecutiveSuccesses := 0 },t.pollInterval,t.lastSuccessInstant⟩,changed,rfl,rfl,rfl,rfl,?_⟩
  simp only [record,recordFailure,isSuccess]
  cases t.health.state with
  | healthy => rfl
  | degraded =>
   simp only [target]
   split <;> rfl
  | down => rfl

variable (toState : HealthState)

@[simp] lemma state_transition (changed : ℕ) : (t.transition toState changed).health.state = toState := by
 unfold transition
 by_cases h : t.health.state = toState
 · rw [if_pos h,h]
 · rw [if_neg h]

@[simp] lemma consecutiveSuccesses_transition (changed : ℕ) :
    (t.transition toState changed).health.consecutiveSuccesses = t.health.consecutiveSuccesses := by
 unfold transition
 split_ifs <;> rfl

@[simp] lemma consecutiveFailures_transition (changed : ℕ) :
    (t.transition toState changed).health.consecutiveFailures = t.health.consecutiveFailures := by
 unfold transition
 split_ifs <;> rfl

/-- The counters only decide whether three calls have come in a row, which full ones still do. -/
theorem Tracks.record {calls : List HealthCall} {t : TrackedTransport} (h : Tracks calls t.health)
    (c : HealthCall) : Tracks (calls ++ [c]) (t.record c).health := by
 obtain ⟨v,changed,hse,-,hsu,hfa,heq⟩:=record_eq t c
 obtain ⟨hd,hh,he,hu,hss,hfs⟩:=h
 have ha : (calls ++ [c]).all isSuccess = (calls.all isSuccess && c.isSuccess) := by simp
 have hl : ∀ n, 3 ≤ min (min n (2 ^ 32 - 1)+1) (2 ^ 32 - 1) ↔ 3 ≤ n+1 := by omega
 have hs:=streak_concat isSuccess calls c
 have hf:=streak_concat isFailure calls c
 rw [u32Succ] at hsu
 rw [u32Succ] at hfa
 rw [heq]
 cases hc : c.isSuccess <;> cases hst : t.health.state <;>
  simp only [hc,hst,isFailure,target,hl,Bool.not_true,Bool.not_false,if_true,if_false,
   Bool.false_eq_true,reduceCtorEq,false_iff,true_iff] at *
 all_goals try split
 all_goals constructor <;> simp only [Option.elim_some,Option.elim_none,state_transition,
  consecutiveSuccesses_transition,consecutiveFailures_transition,hse,hsu,hfa,hs,hf,ha]
 all_goals grind

lemma tracks_recordAll (kind : TransportKind) (pollInterval : Option ℕ) (endpoints : List EndpointHealth)
    (calls : List HealthCall) : Tracks calls ((new kind pollInterval endpoints).recordAll calls).health := by
 induction calls using reverseRecOn with
 | nil => exact ⟨by simp [new,recordAll,streak],by simp [new,recordAll],.inl rfl,fun _=>rfl,rfl,rfl⟩
 | append_singleton calls c ih =>
  rw [recordAll_concat]
  exact ih.record c

variable {after : List HealthCall → TransportHealth} (h : ∀ calls, Tracks calls (after calls))

include h in
/-- Failures at the end of the history brought the machine down. -/
theorem down_iff_failures (calls : List HealthCall) :
    (after calls).state = .down ↔ ∃ before run rest, calls = before ++ run ++ rest ∧
      (∀ c ∈ run ++ rest, c.isFailure = true) ∧
      (after before).state ≠ .down ∧ (after (before ++ run)).state = .down := by
 simp only [Ne,fun calls=>(h calls).down]
 constructor
 · intro hd
   have hs : calls.rdropWhile isFailure ++ calls.rtakeWhile isFailure = calls := rdropWhile_append_rtakeWhile
   refine ⟨calls.rdropWhile isFailure,calls.rtakeWhile isFailure,[],?_,?_,?_,by rwa [hs]⟩
   · rw [append_nil,hs]
   · rw [append_nil]
     exact fun c hc=>mem_rtakeWhile_imp hc
   · rw [streak_rdropWhile]
     omega
 · rintro ⟨before,run,rest,rfl,ha,-,hd⟩
   rw [streak_append _ fun c hc=>ha c (mem_append_right _ hc)]
   omega

include h in
/-- Since the third of the successes that ended the last trouble, there was no failure. -/
theorem healthy_recovered (calls : List HealthCall) (hh : (after calls).state = .healthy) :
    (∀ c ∈ calls, c.isSuccess = true) ∨ ∃ before c₁ c₂ c₃ since, calls = before ++ [c₁, c₂, c₃] ++ since ∧
      (∀ c ∈ [c₁, c₂, c₃] ++ since, c.isSuccess = true) ∧
      (after (before ++ [c₁, c₂])).state ≠ .healthy ∧ (after (before ++ [c₁, c₂, c₃])).state = .healthy := by
 simp only [Ne,fun calls=>(h calls).healthy] at hh ⊢
 rw [← all_eq_true,or_iff_not_imp_left]
 intro ha
 have hsp : calls.rdropWhile isSuccess ++ calls.rtakeWhile isSuccess = calls := rdropWhile_append_rtakeWhile
 have hs : ∀ c ∈ calls.rtakeWhile isSuccess, c.isSuccess = true := fun c hc=>mem_rtakeWhile_imp hc
 have hbefore:=streak_rdropWhile isSuccess calls
 have hr:=hh.resolve_left ha
 unfold streak at hr
 generalize calls.rdropWhile isSuccess = before at hsp hbefore
 generalize calls.rtakeWhile isSuccess = run at hsp hs hr
 match run with
 | c₁ :: c₂ :: c₃ :: since =>
  refine ⟨before,c₁,c₂,c₃,since,by simp [← hsp],hs,?_,.inr ?_⟩
  · rw [streak_append before fun c hc=>hs c (mem_append_left (c₃ :: since) hc),hbefore]
    rintro (ha'|ht)
    · -- the history before the run holds a failure
      refine ha (all_eq_true.mpr fun c hc=>?_)
      rw [← hsp,mem_append] at hc
      exact hc.elim (fun hc=>all_eq_true.mp ha' c (mem_append_left _ hc)) (hs c)
    · exact absurd ht (Nat.not_succ_le_self 2)
  · rw [streak_append before fun c hc=>hs c (mem_append_left since hc),hbefore]
    exact Nat.le_refl 3

end Machine

section Log

/-- The log holds the last transitions of a path that ends in the current state. -/
structure Logged (h : TransportHealth) : Prop where
  bounded : h.transitions.length ≤ 64
  path : h.transitions.IsChain fun a b => a.toState = b.fromState
  last : (h.transitions.getLast?.elim HealthState.healthy HealthTransition.toState) = h.state
  near : ∀ x ∈ h.transitions, x.fromState.severity + 1 = x.toState.severity ∨
    x.toState.severity + 1 = x.fromState.severity

lemma target_near {succeeded : Bool} {state toState : HealthState} {successes failures : ℕ}
    (h : target succeeded state successes failures = some toState) :
    state.severity + 1 = toState.severity ∨ toState.severity + 1 = state.severity := by
 unfold target at h
 split at h
 · exact .inr (by rw [← Option.some.inj h]; rfl)
 · split at h
   · exact .inr (by rw [← Option.some.inj h]; rfl)
   · cases h
 · cases h
 · exact .inl (by rw [← Option.some.inj h]; rfl)
 · split at h
   · exact .inl (by rw [← Option.some.inj h]; rfl)
   · cases h
 · cases h

lemma transitions_transition {toState : HealthState} (changed : ℕ) (hne : t.health.state ≠ toState) : ∃ kept kind,
    (t.transition toState changed).health.transitions = kept ++ [⟨kind, t.health.state, toState, changed⟩] ∧
    kept <:+ t.health.transitions ∧ (t.health.transitions.length ≤ 64 → kept.length < 64) := by
 unfold transition
 rw [if_neg hne]
 refine ⟨_,_,rfl,?_,?_⟩
 · split
   · exact tail_suffix _
   · exact suffix_refl _
 · intro hle
   split
   · rename_i hf
     rw [length_tail,hf]
     decide
   · omega

lemma Logged.transition {t : TrackedTransport} (h : Logged t.health) {toState : HealthState} (changed : ℕ)
    (hn : t.health.state.severity + 1 = toState.severity ∨ toState.severity + 1 = t.health.state.severity) :
    Logged (t.transition toState changed).health := by
 have hne : t.health.state ≠ toState := by
  rintro rfl
  omega
 obtain ⟨kept,kind,heq,⟨dropped,hk⟩,hle⟩:=transitions_transition t changed hne
 refine ⟨?_,?_,?_,?_⟩
 · have := hle h.bounded
   rw [heq,length_append,length_singleton]
   omega
 · have hp:=h.path
   rw [← hk,isChain_append] at hp
   rw [heq,isChain_append]
   refine ⟨hp.2.1,isChain_singleton _,fun x hx y hy=>?_⟩
   cases hy
   have hl:=h.last
   rw [← hk,getLast?_append,Option.mem_def.mp hx] at hl
   exact hl
 · rw [heq,getLast?_concat,state_transition]
   rfl
 · intro x hx
   rw [heq,mem_append,mem_singleton] at hx
   rcases hx with hx|rfl
   · exact h.near x (hk ▸ mem_append_right _ hx)
   · exact hn

lemma Logged.record {t : TrackedTransport} (h : Logged t.health) (c : HealthCall) : Logged (t.record c).health := by
 obtain ⟨v,changed,hs,hl,-,-,heq⟩:=record_eq t c
 have hv : Logged v.health := ⟨hl ▸ h.bounded,hl ▸ h.path,by rw [hl,hs]; exact h.last,hl ▸ h.near⟩
 rw [heq]
 cases ht : target c.isSuccess t.health.state v.health.consecutiveSuccesses
   v.health.consecutiveFailures with
 | none => exact hv
 | some toState => exact hv.transition changed (hs ▸ target_near ht)

lemma logged_recordAll (kind : TransportKind) (pollInterval : Option ℕ) (endpoints : List EndpointHealth)
    (calls : List HealthCall) : Logged ((new kind pollInterval endpoints).recordAll calls).health :=
 foldlRecOn calls TrackedTransport.record (motive := fun t : TrackedTransport=>Logged t.health)
  ⟨Nat.zero_le _,.nil,rfl,nofun⟩ fun _ h c _=>h.record c

end Log

/-- A snapshot shows a transport at least as ill as it is tracked, unless it is down and its last success is two poll
intervals old but not yet stale. -/
theorem snapshot_severity_iff (kind : TransportKind) (pollInterval : Option ℕ) (endpoints : List EndpointHealth)
    (calls : List HealthCall) (now : ℕ) :
    let t := (new kind pollInterval endpoints).recordAll calls
    (t.health.state.severity ≤ (t.snapshot now).state.severity ∧
      ∀ endpoint ∈ (t.snapshot now).endpoints, t.health.state.severity ≤ endpoint.state.severity) ↔
    ¬ t.Masked now :=
 severity_le_snapshot_iff _ now

theorem masked_after_three_failures :
    let second := 1000000000
    let t := (new .http (some (30 * second)) [⟨"https://198.51.100.1/",.healthy⟩]).recordAll
      [.success second second second,.failure (20 * second) (20 * second),.failure (30 * second) (30 * second),
        .failure (40 * second) (40 * second)]
    t.health.state = .down ∧ (t.snapshot (61 * second)).state = .degraded ∧
    (t.snapshot (61 * second)).endpoints = [⟨"https://198.51.100.1/",.degraded⟩] := by
 decide +kernel

/-- The machine is down exactly while failures that brought it down last, healthy only if no failure came since three
successes ended the last trouble, and degraded with neither counted to three. The log is the end of a path to the
current state that changes the severity by one at a time. -/
theorem health_machine (kind : TransportKind) (pollInterval : Option ℕ) (endpoints : List EndpointHealth)
    (calls : List HealthCall) :
    let after := fun calls => ((new kind pollInterval endpoints).recordAll calls).health
    ((after calls).state = .down ↔ ∃ before run rest, calls = before ++ run ++ rest ∧
      (∀ c ∈ run ++ rest, c.isFailure = true) ∧
      (after before).state ≠ .down ∧ (after (before ++ run)).state = .down) ∧
    ((after calls).state = .healthy → (∀ c ∈ calls, c.isSuccess = true) ∨
      ∃ before c₁ c₂ c₃ since, calls = before ++ [c₁,c₂,c₃] ++ since ∧
        (∀ c ∈ [c₁,c₂,c₃] ++ since, c.isSuccess = true) ∧
        (after (before ++ [c₁,c₂])).state ≠ .healthy ∧ (after (before ++ [c₁,c₂,c₃])).state = .healthy) ∧
    ((after calls).state = .degraded →
      (after calls).consecutiveSuccesses < 3 ∧ (after calls).consecutiveFailures < 3) ∧
    ((after calls).consecutiveSuccesses = 0 ∨ (after calls).consecutiveFailures = 0) ∧
    Logged (after calls) := by
 have h:=tracks_recordAll kind pollInterval endpoints
 refine ⟨down_iff_failures h calls,healthy_recovered h calls,fun hs=>?_,?_,logged_recordAll _ _ _ calls⟩
 · have hd:=(h calls).down
   have hh:=(h calls).healthy
   rw [(h calls).successes,(h calls).failures]
   simp only [hs,reduceCtorEq,false_iff,not_or] at hd hh
   omega
 · have he:=(h calls).exclusive
   rw [(h calls).successes,(h calls).failures]
   omega

end TrackedTransport

end Enlace
