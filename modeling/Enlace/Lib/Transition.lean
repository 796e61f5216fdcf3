import Mathlib.Data.List.Basic
import Mathlib.Order.WithBot

set_option autoImplicit false

/-! Runs of a partial step function, plain and guarded, with the rules that carry a property of
one step to a whole run. -/
namespace Transition
open List Option

universe u v
variable {σ τ : Type u} {α β : Type v}

/-- `Runs step s as u`: the actions `as` lead from `s` to `u`. -/
inductive Runs (step : σ → α → Option σ) : σ → List α → σ → Prop where
  | refl (s : σ) : Runs step s [] s
  | next {s u v : σ} {a : α} {as : List α} (h : step s a = some u) (tail : Runs step u as v) : Runs step s (a :: as) v

variable {bs : List α} {u : σ}

lemma of_guard {c : Prop} [Decidable c] {v : σ} (h : (if c then some u else none) = some v) : c ∧ u = v := by
 split_ifs at h with hc
 exact ⟨hc,some.inj h⟩

/-- Runs all of whose actions are taken in a state that admits them. -/
inductive GuardedRuns (step : σ → α → Option σ) (ok : σ → α → Prop) : σ → List α → σ → Prop where
  | refl (s : σ) : GuardedRuns step ok s [] s
  | next {s u v : σ} {a : α} {as : List α} (guard : ok s a) (h : step s a = some u)
      (tail : GuardedRuns step ok u as v) : GuardedRuns step ok s (a :: as) v

variable {step : σ → α → Option σ} {ok : σ → α → Prop}

variable {as : List α} {s v : σ}

lemma GuardedRuns.runs (h : GuardedRuns step ok s as v) : Runs step s as v := by
 induction h with
 | refl s => exact .refl s
 | next _ h _ ih => exact .next h ih

lemma Runs.guarded_of_mem (h : Runs step s as v) (all : ∀ a ∈ as, ∀ s, ok s a) : GuardedRuns step ok s as v := by
 induction h with
 | refl s => exact .refl s
 | next h _ ih => exact .next (all _ mem_cons_self _) h (ih fun a ha=>all a (mem_cons_of_mem _ ha))

lemma Runs.guarded_of_invariant (I : σ → Prop) (h : Runs step s as v) (hs : I s)
    (keep : ∀ s a u, I s → step s a = some u → I u) (hok : ∀ s a, I s → ok s a) : GuardedRuns step ok s as v := by
 induction h with
 | refl s => exact .refl s
 | next h _ ih => exact .next (hok _ _ hs) h (ih (keep _ _ _ hs h))

lemma GuardedRuns.invariant (I : σ → Prop) (h : GuardedRuns step ok s as v) (hs : I s)
    (keep : ∀ s a u, I s → ok s a → step s a = some u → I u) : I v := by
 induction h with
 | refl _ => exact hs
 | next guard h _ ih => exact ih (keep _ _ _ hs guard h)

lemma Runs.invariant (I : σ → Prop) (h : Runs step s as v) (hs : I s)
    (keep : ∀ s a u, I s → step s a = some u → I u) : I v := by
 induction h with
 | refl _ => exact hs
 | next h _ ih => exact ih (keep _ _ _ hs h)

lemma Runs.append (h : Runs step s as u) (h' : Runs step u bs v) : Runs step s (as ++ bs) v := by
 induction h with
 | refl _ => exact h'
 | next h _ ih => exact .next h (ih h')

lemma GuardedRuns.after (h : GuardedRuns step ok s (as ++ bs) v)
    (h' : Runs step s as u) : GuardedRuns step ok u bs v := by
 induction h' with
 | refl => exact h
 | next hs _ ih =>
  cases h with
  | next _ hn tail => exact ih (some.inj (hn.symm.trans hs) ▸ tail)

def exec (step : σ → α → Option σ) : σ → List α → Option σ
  | s, [] => some s
  | s, a :: as => (step s a).bind fun u => exec step u as

lemma runs_of_exec (h : exec step s as = some v) : Runs step s as v := by
 induction as generalizing s with
 | nil =>
  obtain rfl:=some.inj h
  exact .refl s
 | cons a as ih =>
  obtain ⟨u,hu,hv⟩:=bind_eq_some_iff.mp h
  exact .next hu (ih hv)

lemma exec_of_runs (h : Runs step s as v) : exec step s as = some v := by
 induction h with
 | refl _ => rfl
 | next h _ ih => exact bind_eq_some_iff.mpr ⟨_,h,ih⟩

/-- A run with given actions is found by running them. -/
instance decidableExistsRuns {P : σ → Prop} [DecidablePred P] : Decidable (∃ v, Runs step s as v ∧ P v) :=
  decidable_of_iff ((exec step s as).any (fun v => P v) = true) (by
    rw [Option.any_eq_true]
    exact exists_congr fun v => ⟨fun h => ⟨runs_of_exec h.1, of_decide_eq_true h.2⟩,
      fun h => ⟨exec_of_runs h.1, decide_eq_true h.2⟩⟩)

section
variable {P Q R S : σ → Prop}

lemma exists_and₂ (h : ∃ v, P v ∧ Q v) (hR : ∀ v, P v → Q v → R v) : ∃ v, P v ∧ Q v ∧ R v :=
 h.imp fun v ⟨hP,hQ⟩=>⟨hP,hQ,hR v hP hQ⟩

lemma exists_and₃ (h : ∃ v, P v ∧ Q v ∧ R v) (hS : ∀ v, P v → Q v → R v → S v) : ∃ v, P v ∧ Q v ∧ R v ∧ S v :=
 h.imp fun v ⟨hP,hQ,hR⟩=>⟨hP,hQ,hR,hS v hP hQ hR⟩

lemma exists₂_and₃ {P Q R S : σ → β → Prop} (h : ∃ u v, P u v ∧ Q u v ∧ R u v)
    (hS : ∀ u v, P u v → Q u v → R u v → S u v) : ∃ u v, P u v ∧ Q u v ∧ R u v ∧ S u v :=
 h.imp fun u h=>exists_and₃ h (hS u)

end

def execIf (step : σ → α → Option σ) (ok : σ → α → Prop) [∀ s, DecidablePred (ok s)] : σ → List α → Option σ
  | s, [] => some s
  | s, a :: as => if ok s a then (step s a).bind fun u => execIf step ok u as else none

lemma guardedRuns_of_execIf [∀ s, DecidablePred (ok s)]
    (h : execIf step ok s as = some v) : GuardedRuns step ok s as v := by
 induction as generalizing s with
 | nil =>
  obtain rfl:=some.inj h
  exact .refl s
 | cons a as ih =>
  rw [execIf] at h
  split at h
  · rename_i guard
    obtain ⟨u,hu,hv⟩:=bind_eq_some_iff.mp h
    exact .next guard hu (ih hv)
  · cases h

lemma execIf_of_guardedRuns [∀ s, DecidablePred (ok s)] (h : GuardedRuns step ok s as v) :
    execIf step ok s as = some v := by
 induction h with
 | refl _ => rfl
 | next guard h _ ih =>
  rw [execIf,if_pos guard]
  exact bind_eq_some_iff.mpr ⟨_,h,ih⟩

instance decidableExistsGuardedRuns [∀ s, DecidablePred (ok s)] {P : σ → Prop} [DecidablePred P] :
    Decidable (∃ v, GuardedRuns step ok s as v ∧ P v) :=
  decidable_of_iff ((execIf step ok s as).any (fun v => P v) = true) (by
    rw [Option.any_eq_true]
    exact exists_congr fun v => ⟨fun h => ⟨guardedRuns_of_execIf h.1, of_decide_eq_true h.2⟩,
      fun h => ⟨execIf_of_guardedRuns h.1, decide_eq_true h.2⟩⟩)

lemma GuardedRuns.append (h : GuardedRuns step ok s as u)
    (h' : GuardedRuns step ok u bs v) : GuardedRuns step ok s (as ++ bs) v := by
 induction h with
 | refl _ => exact h'
 | next guard h _ ih => exact .next guard h (ih h')

/-- Where admitted actions keep `I`, which implies `P`, and the others lead out of `P`, the guarded runs are those in
`P`. -/
theorem Runs.guarded_iff_holds {I P : σ → Prop} (h : Runs step s as v) (hs : I s)
    (hk : ∀ s a u, I s → ok s a → step s a = some u → I u) (hP : ∀ s, I s → P s)
    (hne : ∀ s a u, I s → step s a = some u → P u → ok s a) :
    GuardedRuns step ok s as v ↔ ∀ bs cs u, as = bs ++ cs → Runs step s bs u → P u := by
 constructor
 · intro hg bs cs u has hu
   clear h
   induction hg generalizing bs with
   | refl s =>
    obtain ⟨rfl,_⟩:=append_eq_nil_iff.mp has.symm
    cases hu
    exact hP _ hs
   | next guard hn _ ih =>
    cases hu with
    | refl _ => exact hP _ hs
    | next hn' tail =>
     obtain ⟨rfl,hrest⟩:=cons.inj has
     obtain rfl:=some.inj (hn.symm.trans hn')
     exact ih (hk _ _ _ hs guard hn) _ hrest tail
 · intro ha
   induction h with
   | refl s => exact .refl s
   | @next s w v a as hn tail ih =>
    have hok:=hne _ _ _ hs hn (ha [a] as w rfl (.next hn (.refl w)))
    refine .next hok hn (ih (hk _ _ _ hs hok hn) ?_)
    intro bs cs u has hu
    exact ha (a :: bs) cs u (by rw [has]; rfl) (.next hn hu)

/-- Where admitted actions are exactly those that keep `I`, the guarded runs are those that stay
in `I`. -/
theorem Runs.guarded_iff {I : σ → Prop} (h : Runs step s as v) (hs : I s)
    (hst : ∀ s a u, I s → step s a = some u → (I u ↔ ok s a)) :
    GuardedRuns step ok s as v ↔ ∀ bs cs u, as = bs ++ cs → Runs step s bs u → I u :=
 h.guarded_iff_holds hs (fun s a u hs hok hu=>(hst s a u hs hu).mpr hok) (fun _ hs=>hs)
  fun s a u hs hu hI=>(hst s a u hs hu).mp hI

/-- Where an action that is not admitted leads out of `I` for good, the guarded runs are those that end in `I`. -/
theorem Runs.guarded_iff_last {I J : σ → Prop} (h : Runs step s as v) (hs : I s)
    (hst : ∀ s a u, I s → step s a = some u → ok s a ∧ I u ∨ ¬ ok s a ∧ J u)
    (ha : ∀ s a u, J s → step s a = some u → J u) (ho : ∀ s, J s → ¬ I s) :
    GuardedRuns step ok s as v ↔ I v := by
 constructor
 · intro hg
   refine hg.invariant I hs fun s a u hs hok hu=>?_
   rcases hst s a u hs hu with ⟨_,hI⟩|⟨hno,_⟩
   · exact hI
   · exact absurd hok hno
 · intro hv
   induction h with
   | refl s => exact .refl s
   | @next s u v a as hn tail ih =>
    rcases hst s a u hs hn with ⟨hok,hI⟩|⟨_,hJ⟩
    · exact .next hok hn (ih hI hv)
    · exact absurd hv (ho v (tail.invariant J hJ ha))

structure Path (step : σ → α → Option σ) (ok : σ → α → Prop) where
  state : ℕ → σ
  act : ℕ → α
  admitted : ∀ n, ok (state n) (act n)
  next : ∀ n, step (state n) (act n) = some (state (n + 1))

lemma Path.runs (p : Path step ok) (n k : ℕ) : ∃ as, GuardedRuns step ok (p.state n) as (p.state (n + k)) := by
 induction k with
 | zero => exact ⟨[],.refl _⟩
 | succ k ih =>
  obtain ⟨as,h⟩:=ih
  exact ⟨as ++ [p.act (n+k)],h.append (.next (p.admitted _) (p.next _) (.refl _))⟩

lemma Path.invariant (p : Path step ok) (I : σ → Prop) {n k : ℕ} (hn : n ≤ k) (hs : I (p.state n))
    (keep : ∀ s a u, I s → ok s a → step s a = some u → I u) : I (p.state k) := by
 obtain ⟨as,hr⟩:=p.runs n (k - n)
 rw [Nat.add_sub_cancel' hn] at hr
 exact hr.invariant I hs keep

/-- A run into a state that an admitted action leaves as it is goes on forever. -/
theorem GuardedRuns.path (h : GuardedRuns step ok s as v) {a : α} (hok : ok v a) (ha : step v a = some v) :
    ∃ p : Path step ok, p.state 0 = s ∧ ∀ n, as.length ≤ n → p.state n = v := by
 induction h with
 | refl v => exact ⟨⟨fun _=>v,fun _=>a,fun _=>hok,fun _=>ha⟩,rfl,fun _ _=>rfl⟩
 | @next s u v b as guard hb _ ih =>
  obtain ⟨p,hp,hl⟩:=ih hok ha
  refine ⟨⟨fun n=>n.casesOn s p.state,fun n=>n.casesOn b p.act,?_,?_⟩,rfl,?_⟩
  · intro n
    cases n with
    | zero => exact guard
    | succ n => exact p.admitted n
  · intro n
    cases n with
    | zero =>
     change step s b = some (p.state 0)
     rw [hp]
     exact hb
    | succ n => exact p.next n
  · intro n hn
    cases n with
    | zero => exact absurd hn (by simp)
    | succ n => exact hl n (by simpa using hn)

/-- One step of a refinement, in the states that satisfy `I`: either the mapped state stays, or it
takes the mapped action. -/
def Refines (step : σ → α → Option σ) (step' : τ → β → Option τ) (I : σ → Prop) (f : σ → τ)
    (g : σ → α → Option β) : Prop :=
  ∀ s a u, I s → step s a = some u → (g s a = none ∧ f u = f s) ∨ ∃ b, g s a = some b ∧ step' (f s) b = some (f u)

variable {step' : τ → β → Option τ} {ok' : τ → β → Prop} {I : σ → Prop} {f : σ → τ}
  {g : σ → α → Option β}

lemma Refines.guardedRuns (hf : Refines step step' I f g) (keep : ∀ s a u, I s → step s a = some u → I u)
    (hok : ∀ s a b, ok s a → g s a = some b → ok' (f s) b)
    (hs : I s) (h : GuardedRuns step ok s as v) : ∃ bs, GuardedRuns step' ok' (f s) bs (f v) := by
 induction h with
 | refl s => exact ⟨[],.refl _⟩
 | next guard h _ ih =>
  obtain ⟨bs,hbs⟩:=ih (keep _ _ _ hs h)
  rcases hf _ _ _ hs h with ⟨_,he⟩|⟨b,hg,hb⟩
  · exact ⟨bs,he ▸ hbs⟩
  · exact ⟨b :: bs,.next (hok _ _ _ guard hg) hb hbs⟩

end Transition

/-! Several workers filter a stream of keys through one shared maximum and then emit what passed.
Accepting a key and emitting it are separate actions, so the keys leave in an order of the
workers' own choosing. -/
namespace AcceptEmit
open Transition List Option Function

variable {ι κ : Type} [DecidableEq ι] [LinearOrder κ]

structure St (ι κ : Type) where
  best : Option κ
  held : ι → Option κ
  emitted : List κ

inductive Act (ι κ : Type) where
  | accept (i : ι) (k : κ)
  | emit (i : ι)
  | drop (i : ι)

def init : St ι κ := ⟨none, fun _ => none, []⟩

def exceeds (k : κ) (best : Option κ) : Bool := best.all fun b => decide (b < k)

def step (s : St ι κ) : Act ι κ → Option (St ι κ)
  | .accept i k => if s.held i = none ∧ exceeds k s.best then
      some { s with best := some k, held := Function.update s.held i (some k) } else none
  | .emit i => (s.held i).map fun k =>
      { s with held := Function.update s.held i none, emitted := s.emitted ++ [k] }
  | .drop i => (s.held i).map fun _ => { s with held := Function.update s.held i none }

/-- The worker emits the smallest key held by anyone. -/
def InOrder (s : St ι κ) : Act ι κ → Prop
  | .emit i => ∀ j k k', s.held i = some k → s.held j = some k' → k ≤ k'
  | _ => True

structure Inv (s : St ι κ) : Prop where
  held_le : ∀ i k, s.held i = some k → ∃ b, s.best = some b ∧ k ≤ b
  emitted_le : ∀ k ∈ s.emitted, ∃ b, s.best = some b ∧ k ≤ b
  held_inj : ∀ i j k, s.held i = some k → s.held j = some k → i = j

structure Ordered (s : St ι κ) : Prop extends Inv s where
  emitted_lt : ∀ k ∈ s.emitted, ∀ i k', s.held i = some k' → k < k'
  sorted : s.emitted.Pairwise (· < ·)

omit [DecidableEq ι] in
lemma inv_init : Inv (init : St ι κ) :=
 ⟨fun _ _ h=>by simp [init] at h,fun _ h=>by simp [init] at h,fun _ _ _ h=>by simp [init] at h⟩

omit [DecidableEq ι] in
lemma ordered_init : Ordered (init : St ι κ) :=
 ⟨inv_init,fun _ h=>by simp [init] at h,List.Pairwise.nil⟩

variable {i : ι} {k : κ} {s u : St ι κ}

omit [LinearOrder κ] in
lemma held_of_release {j : ι} (h : update s.held i none j = some k) : j ≠ i ∧ s.held j = some k := by
 by_cases he : j = i
 · subst he
   simp at h
 · exact ⟨he,by rwa [update_of_ne he] at h⟩

lemma inv_accept (hs : Inv s) (h : step s (.accept i k) = some u) : Inv u ∧ (∀ k' ∈ s.emitted, k' < k) ∧
      (∀ j k', u.held j = some k' → (j = i ∧ k' = k) ∨ (j ≠ i ∧ s.held j = some k' ∧ k' < k)) ∧
      u.emitted = s.emitted := by
 simp only [step] at h
 split at h
 · rename_i hc
   cases h
   have below : ∀ k', (∃ b, s.best = some b ∧ k' ≤ b) → k' < k := by
    rintro k' ⟨b,hb,hle⟩
    have hbk : exceeds k s.best = true := hc.2
    rw [hb] at hbk
    exact lt_of_le_of_lt hle (by simpa [exceeds] using hbk)
   have cases : ∀ j k', update s.held i (some k) j = some k' →
     (j = i ∧ k' = k) ∨ (j ≠ i ∧ s.held j = some k' ∧ k' < k) := by
    intro j k' hj
    by_cases he : j = i
    · subst he
      rw [update_self,some.injEq] at hj
      exact Or.inl ⟨rfl,hj.symm⟩
    · rw [update_of_ne he] at hj
      exact Or.inr ⟨he,hj,below k' (hs.held_le j k' hj)⟩
   refine ⟨⟨?_,?_,?_⟩,fun k' hk' => below k' (hs.emitted_le k' hk'),cases,rfl⟩
   · intro j k' hj
     rcases cases j k' hj with ⟨_,rfl⟩|⟨_,_,hlt⟩
     · exact ⟨k',rfl,le_refl _⟩
     · exact ⟨k,rfl,le_of_lt hlt⟩
   · intro k' hk'
     exact ⟨k,rfl,le_of_lt (below k' (hs.emitted_le k' hk'))⟩
   · intro j l k' hj hl
     rcases cases j k' hj with ⟨rfl,rfl⟩|⟨_,hj',hlt⟩
     · rcases cases l k' hl with ⟨rfl,_⟩|⟨_,_,hlt⟩
       · rfl
       · exact absurd hlt (lt_irrefl _)
     · rcases cases l k' hl with ⟨_,rfl⟩|⟨_,hl',_⟩
       · exact absurd hlt (lt_irrefl _)
       · exact hs.held_inj j l k' hj' hl'
 · cases h

lemma inv_release (hs : Inv s) (i : ι) (emitted : List κ) (he : ∀ k ∈ emitted, ∃ b, s.best = some b ∧ k ≤ b) :
    Inv { s with held := update s.held i none, emitted := emitted } :=
 ⟨fun j k hj=>hs.held_le j k (held_of_release hj).2,he,
  fun j l k hj hl=>hs.held_inj j l k (held_of_release hj).2 (held_of_release hl).2⟩

lemma ordered_step {a : Act ι κ} (hs : Ordered s) (hok : InOrder s a) (h : step s a = some u) : Ordered u := by
 cases a with
 | accept i k =>
  obtain ⟨hu,hlt,cases,he⟩:=inv_accept hs.toInv h
  refine ⟨hu,?_,he ▸ hs.sorted⟩
  intro k' hk' j k'' hj
  rw [he] at hk'
  rcases cases j k'' hj with ⟨_,rfl⟩|⟨_,hj',_⟩
  · exact hlt k' hk'
  · exact hs.emitted_lt k' hk' j k'' hj'
 | emit i =>
  obtain ⟨k,hk,rfl⟩:=map_eq_some_iff.mp h
  refine ⟨inv_release hs.toInv i _ ?_,?_,?_⟩
  · intro k' hk'
    rcases mem_append.mp hk' with hk'|hk'
    · exact hs.emitted_le k' hk'
    · exact mem_singleton.mp hk' ▸ hs.held_le i k hk
  · intro k' hk' j k'' hj
    obtain ⟨hne,hj⟩:=held_of_release hj
    rcases mem_append.mp hk' with hk'|hk'
    · exact hs.emitted_lt k' hk' j k'' hj
    · rw [mem_singleton.mp hk']
      -- The other worker holds another key, so the order is strict.
      refine lt_of_le_of_ne (hok j k k'' hk hj) ?_
      intro heq
      exact hne (hs.held_inj j i k'' hj (heq ▸ hk))
  · refine pairwise_append.mpr ⟨hs.sorted,pairwise_singleton _ _,?_⟩
    intro k' hk' k'' hk''
    exact mem_singleton.mp hk'' ▸ hs.emitted_lt k' hk' i k hk
 | drop i =>
  obtain ⟨k,hk,rfl⟩:=map_eq_some_iff.mp h
  exact ⟨inv_release hs.toInv i _ hs.emitted_le,
   fun k' hk' j k'' hj=>hs.emitted_lt k' hk' j k'' (held_of_release hj).2,hs.sorted⟩

/-- Emitting in order keeps the output strictly increasing, whatever else interleaves. -/
theorem sorted_of_guardedRuns {as : List (Act ι κ)}
    (h : GuardedRuns step InOrder init as s) : s.emitted.Pairwise (· < ·) :=
 (h.invariant Ordered ordered_init fun _ _ _ hs hok hu=>ordered_step hs hok hu).sorted

end AcceptEmit

/-! Computations that change a state and return a value. -/
namespace Stateful

variable {σ α β : Type}

lemma bind_apply (m : StateM σ α) (f : α → StateM σ β) (s : σ) : (m >>= f) s = f (m s).1 (m s).2 := rfl

lemma pure_apply (a : α) (s : σ) : (pure a : StateM σ α) s = (a, s) := rfl

lemma get_bind (f : σ → StateM σ β) (s : σ) : (get >>= f) s = f s s := rfl

lemma set_bind (t : σ) (f : PUnit → StateM σ β) (s : σ) : (set t >>= f) s = f ⟨⟩ t := rfl

lemma modify_bind (g : σ → σ) (f : PUnit → StateM σ β) (s : σ) : (modify g >>= f) s = f ⟨⟩ (g s) := rfl

/-- A computation leaves a view of the state as it is. -/
def Keeps {ν : Type*} (view : σ → ν) (m : StateM σ α) : Prop := ∀ s, view (m s).2 = view s

variable {f : α → StateM σ β} {m : StateM σ α} {c : Prop} {g : σ → σ} {n : StateM σ α}

namespace Keeps

variable {ν : Type*} {view : σ → ν}

lemma pure (a : α) : Keeps view (Pure.pure a : StateM σ α) := fun _=>rfl

lemma bind (hm : Keeps view m) (hf : ∀ a, Keeps view (f a)) : Keeps view (m >>= f) := by
 intro s
 rw [bind_apply,hf,hm]

lemma get_bind {f : σ → StateM σ β} (h : ∀ s, view (f s s).2 = view s) : Keeps view (get >>= f) := h

lemma modify (h : ∀ s, view (g s) = view s) : Keeps view (modify g : StateM σ PUnit) := h

lemma ite [Decidable c] (hm : Keeps view m) (hn : Keeps view n) : Keeps view (if c then m else n) := by
 split_ifs
 · exact hm
 · exact hn

end Keeps

def Preserves (I : σ → Prop) (m : StateM σ α) : Prop := ∀ s, I s → I (m s).2

namespace Preserves

variable {I : σ → Prop}

lemma pure (a : α) : Preserves I (Pure.pure a : StateM σ α) := fun _ h=>h

lemma bind (hm : Preserves I m) (hf : ∀ a, Preserves I (f a)) : Preserves I (m >>= f) := by
 intro s hs
 exact hf _ _ (hm s hs)

lemma get_bind {f : σ → StateM σ β} (h : ∀ s, I s → I (f s s).2) : Preserves I (get >>= f) := h

lemma modify (h : ∀ s, I s → I (g s)) : Preserves I (modify g : StateM σ PUnit) := h

lemma ite [Decidable c] (hm : Preserves I m) (hn : Preserves I n) : Preserves I (if c then m else n) := by
 split_ifs
 · exact hm
 · exact hn

end Preserves

/-- Whatever a computation returns has the property. -/
def Returns (P : α → Prop) (m : StateM σ α) : Prop := ∀ s, P (m s).1

/-- From a state with the invariant the computation comes to one, and everything that it puts out has the property. -/
def Respects {ω : Type} (I : σ → Prop) (E : ω → Prop) (m : StateM σ (List ω)) : Prop :=
  ∀ s, I s → I (m s).2 ∧ ∀ e ∈ (m s).1, E e

namespace Respects

variable {ω : Type} {I : σ → Prop} {E : ω → Prop} {m n : StateM σ (List ω)}

lemma pure {out : List ω} (h : ∀ e ∈ out, E e) : Respects I E (Pure.pure out) := fun _ hs=>⟨hs,h⟩

lemma nothing : Respects I E (Pure.pure []) := pure nofun

lemma bind {f : List ω → StateM σ (List ω)} (hm : Respects I E m)
    (hf : ∀ out, (∀ e ∈ out, E e) → Respects I E (f out)) : Respects I E (m >>= f) :=
 fun s hs=>hf _ (hm s hs).2 _ (hm s hs).1

lemma after {m : StateM σ α} {f : α → StateM σ (List ω)} (hm : Preserves I m) (hf : ∀ a, Respects I E (f a)) :
    Respects I E (m >>= f) :=
 fun s hs=>hf _ _ (hm s hs)

lemma append (hm : Respects I E m) (hn : Respects I E n) : Respects I E (do
      let out ← m
      let rest ← n
      return out ++ rest) :=
 hm.bind fun _ ho=>hn.bind fun _ hrest=>.pure (List.forall_mem_append.mpr ⟨ho,hrest⟩)

lemma get_bind {f : σ → StateM σ (List ω)} (h : ∀ s, I s → I (f s s).2 ∧ ∀ e ∈ (f s s).1, E e) :
    Respects I E (get >>= f) := h

lemma ite [Decidable c] (hm : Respects I E m) (hn : Respects I E n) : Respects I E (if c then m else n) := by
 split_ifs
 · exact hm
 · exact hn

end Respects

end Stateful
