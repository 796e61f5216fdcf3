import Mathlib.Order.Defs.Unbundled
import Mathlib.Logic.Basic

set_option autoImplicit false

/-! Computations that change a state and may throw. What was done to the state before a throw stays
done, as with objects that are changed in place. -/
namespace Throwing
open List

variable {ε σ τ α β : Type}

def final : EStateM.Result ε σ α → σ
  | .ok _ s => s
  | .error _ s => s

def outcome : EStateM.Result ε σ α → Except ε α
  | .ok a _ => .ok a
  | .error e _ => .error e

def thrown : EStateM.Result ε σ α → Option ε
  | .ok _ _ => none
  | .error e _ => some e

def mapState (f : σ → τ) : EStateM.Result ε σ α → EStateM.Result ε τ α
  | .ok a s => .ok a (f s)
  | .error e s => .error e (f s)

variable {a : α} {b : β} {n : EStateM ε τ α} {r : EStateM.Result ε σ α} {v : σ}

lemma mapState_eq_ok {f : σ → τ} {t : τ} : mapState f r = .ok a t ↔ ∃ s, r = .ok a s ∧ f s = t := by
 cases r with
 | ok b s => simp [mapState,and_assoc]
 | error e s => simp [mapState]

variable {e : ε}

lemma eq_error_of_thrown (h : thrown r = some e) : r = .error e (final r) := by
 cases r with
 | ok _ _ => cases h
 | error _ _ =>
  cases h
  rfl

def lift (x : Except ε α) : EStateM ε σ α := fun s =>
  match x with
  | .ok a => .ok a s
  | .error e => .error e s

def zoom (get : σ → τ) (put : σ → τ → σ) (m : EStateM ε τ α) : EStateM ε σ α := fun s =>
  match m (get s) with
  | .ok a t => .ok a (put s t)
  | .error e t => .error e (put s t)

variable {f : α → EStateM ε σ β} {m : EStateM ε σ α} {s u : σ}

lemma bind_ok (h : m s = .ok a u) : (m >>= f) s = f a u := by
 change EStateM.bind m f s = f a u
 rw [EStateM.bind,h]

lemma bind_error (h : m s = .error e u) : (m >>= f) s = .error e u := by
 change EStateM.bind m f s = .error e u
 rw [EStateM.bind,h]

lemma bind_congr {n : EStateM ε σ α} (h : m s = n u) : (m >>= f) s = (n >>= f) u := by
 change EStateM.bind m f s = EStateM.bind n f u
 rw [EStateM.bind,EStateM.bind,h]

lemma get_bind {f : σ → EStateM ε σ β} : (get >>= f) s = f s s := rfl

lemma set_bind {f : PUnit → EStateM ε σ β} : (set u >>= f) s = f ⟨⟩ u := rfl

lemma modify_bind {g : σ → σ} {f : PUnit → EStateM ε σ β} : (modify g >>= f) s = f ⟨⟩ (g s) := rfl

lemma bind_eq_ok : (m >>= f) s = .ok b v ↔ ∃ a u, m s = .ok a u ∧ f a u = .ok b v := by
 cases h : m s with
 | ok a u =>
  rw [bind_ok h]
  constructor
  · intro hb
    exact ⟨a,u,rfl,hb⟩
  · intro ⟨_,_,he,hb⟩
    cases he
    exact hb
 | error e u =>
  rw [bind_error h]
  constructor
  · intro hb
    cases hb
  · intro ⟨_,_,he,_⟩
    cases he

lemma bind_eq_error : (m >>= f) s = .error e v ↔ m s = .error e v ∨ ∃ a u, m s = .ok a u ∧ f a u = .error e v := by
 cases h : m s with
 | ok a u =>
  rw [bind_ok h]
  constructor
  · intro hb
    exact .inr ⟨a,u,rfl,hb⟩
  · rintro (he|⟨_,_,he,hb⟩)
    · cases he
    · cases he
      exact hb
 | error e' u =>
  rw [bind_error h]
  constructor
  · intro hb
    cases hb
    exact .inl rfl
  · rintro (he|⟨_,_,he,_⟩)
    · cases he
      rfl
    · cases he

@[simp] lemma lift_ok (a : α) (s : σ) : lift (.ok a : Except ε α) s = .ok a s := rfl

@[simp] lemma lift_error (e : ε) (s : σ) : (lift (.error e) : EStateM ε σ α) s = .error e s := rfl

variable {x : Except ε α}

lemma lift_eq_ok : lift x s = .ok a u ↔ x = .ok a ∧ u = s := by
 cases x with
 | ok b => simp [eq_comm]
 | error e => simp

lemma lift_eq_error : (lift x : EStateM ε σ α) s = .error e u ↔ x = .error e ∧ u = s := by
 cases x with
 | ok b => simp
 | error e => simp [eq_comm]

lemma lift_bind_eq_ok : (lift x >>= f) s = .ok b u ↔ ∃ a, x = .ok a ∧ f a s = .ok b u := by
 cases x with
 | ok a =>
  rw [bind_ok (lift_ok a s)]
  simp
 | error e =>
  rw [bind_error (lift_error e s)]
  simp

lemma lift_bind_eq_error :
    (lift x >>= f) s = .error e u ↔ (x = .error e ∧ u = s) ∨ ∃ a, x = .ok a ∧ f a s = .error e u := by
 cases x with
 | ok a =>
  rw [bind_ok (lift_ok a s)]
  simp
 | error e =>
  rw [bind_error (lift_error e s)]
  simp [eq_comm]

variable {put : σ → τ → σ}

lemma zoom_eq_ok {get : σ → τ} {m : EStateM ε τ α} :
    zoom get put m s = .ok a u ↔ ∃ t, m (get s) = .ok a t ∧ u = put s t := by
 rw [zoom]
 cases m (get s) with
 | ok b t =>
  constructor
  · intro h
    cases h
    exact ⟨t,rfl,rfl⟩
  · rintro ⟨_,h,rfl⟩
    cases h
    rfl
 | error e t => simp

lemma zoom_eq_error {get : σ → τ} {m : EStateM ε τ α} :
    zoom get put m s = .error e u ↔ ∃ t, m (get s) = .error e t ∧ u = put s t := by
 rw [zoom]
 cases m (get s) with
 | ok b t => simp
 | error e t =>
  constructor
  · intro h
    cases h
    exact ⟨t,rfl,rfl⟩
  · rintro ⟨_,h,rfl⟩
    cases h
    rfl

lemma outcome_zoom {get : σ → τ} {m : EStateM ε τ α} : outcome (zoom get put m s) = outcome (m (get s)) := by
 rw [zoom]
 cases m (get s) with
 | ok a t => rfl
 | error e t => rfl

lemma final_zoom {get : σ → τ} {m : EStateM ε τ α} : final (zoom get put m s) = put s (final (m (get s))) := by
 rw [zoom]
 cases m (get s) with
 | ok a t => rfl
 | error e t => rfl

/-- A computation leaves a view of the state as it is, whether it throws or not. -/
def Keeps {ν : Type*} (view : σ → ν) (m : EStateM ε σ α) : Prop := ∀ s, view (final (m s)) = view s

namespace Keeps

variable {ν : Type*} {view : σ → ν}

lemma pure (a : α) : Keeps view (Pure.pure a : EStateM ε σ α) := fun _=>rfl

lemma lift (x : Except ε α) : Keeps view (lift x : EStateM ε σ α) := by
 intro s
 cases x with
 | ok a => rfl
 | error e => rfl

lemma bind (hm : Keeps view m) (hf : ∀ a, Keeps view (f a)) : Keeps view (m >>= f) := by
 intro s
 have hs:=hm s
 cases h : m s with
 | ok a u =>
  rw [bind_ok h,hf a u]
  rwa [h] at hs
 | error e u =>
  rw [bind_error h]
  rwa [h] at hs

lemma get_bind {f : σ → EStateM ε σ β} (h : ∀ s, view (final (f s s)) = view s) : Keeps view (get >>= f) := h

lemma zoom {get : σ → τ} (h : ∀ s t, view (put s t) = view s) (m : EStateM ε τ α) : Keeps view (zoom get put m) := by
 intro s
 rw [final_zoom,h]

end Keeps

/-- Whatever a computation returns has the property. -/
def Returns (P : α → Prop) (m : EStateM ε σ α) : Prop := ∀ s a u, m s = .ok a u → P a

namespace Returns

variable {P : α → Prop} {Q : β → Prop}

lemma pure (h : P a) : Returns P (Pure.pure a : EStateM ε σ α) := by
 intro s b u hb
 cases hb
 exact h

lemma lift (h : ∀ a, x = .ok a → P a) : Returns P (lift x : EStateM ε σ α) := by
 intro s a u ha
 exact h a (lift_eq_ok.mp ha).1

lemma bind (hm : Returns P m) (hf : ∀ a, P a → Returns Q (f a)) : Returns Q (m >>= f) := by
 intro s b v hb
 obtain ⟨a,u,ha,hb⟩:=bind_eq_ok.mp hb
 exact hf a (hm s a u ha) u b v hb

lemma bind_right (hf : ∀ a, Returns Q (f a)) : Returns Q (m >>= f) :=
 bind (P := fun _=>True) (fun _ _ _ _=>trivial) fun a _=>hf a

lemma zoom {get : σ → τ} {m : EStateM ε τ α} (h : Returns P m) : Returns P (zoom get put m : EStateM ε σ α) := by
 intro s a u ha
 obtain ⟨t,ht,_⟩:=zoom_eq_ok.mp ha
 exact h (get s) a t ht

end Returns

/-- Rounds of a loop that goes on as long as they return `false`. -/
def untilTrue (f : α → EStateM ε σ Bool) : List α → EStateM ε σ Bool
  | [] => return false
  | a :: as => do
    if ← f a then return true
    else untilTrue f as

/-- A computation does to a view of the state what another one does to it. -/
def Simulates (view : σ → τ) (m : EStateM ε σ α) (n : EStateM ε τ α) : Prop :=
  ∀ s, outcome (m s) = outcome (n (view s)) ∧ view (final (m s)) = final (n (view s))

lemma Simulates.eq_ok {view : σ → τ} (h : Simulates view m n) (hm : m s = .ok a u) : n (view s) = .ok a (view u) := by
 have hs:=h s
 cases hn : n (view s) with
 | ok b v =>
  rw [hm,hn] at hs
  obtain ⟨hv,rfl⟩:=hs
  cases hv
  rfl
 | error e v =>
  rw [hm,hn] at hs
  cases hs.1

lemma Simulates.eq_error {view : σ → τ} (h : Simulates view m n)
    (hm : m s = .error e u) : n (view s) = .error e (view u) := by
 have hs:=h s
 cases hn : n (view s) with
 | ok b v =>
  rw [hm,hn] at hs
  cases hs.1
 | error e' v =>
  rw [hm,hn] at hs
  obtain ⟨hv,rfl⟩:=hs
  cases hv
  rfl

section
variable {f : α → EStateM ε σ Bool} {a : α} {as front rest : List α} {s u : σ} {e : ε}

lemma untilTrue_cons_false (h : f a s = .ok false u) : untilTrue f (a :: as) s = untilTrue f as u := by
 rw [untilTrue,bind_ok h]
 rfl

lemma untilTrue_cons_true (h : f a s = .ok true u) : untilTrue f (a :: as) s = .ok true u := by
 rw [untilTrue,bind_ok h]
 rfl

lemma untilTrue_cons_error (h : f a s = .error e u) : untilTrue f (a :: as) s = .error e u := by
 rw [untilTrue,bind_error h]

/-- A loop that gets through the front of a list goes on with the rest; another never sees it. -/
theorem untilTrue_append : untilTrue f (front ++ rest) s = match untilTrue f front s with
      | .ok false u => untilTrue f rest u
      | .ok true u => .ok true u
      | .error e u => .error e u := by
 induction front generalizing s with
 | nil => rfl
 | cons a front ih =>
  rw [cons_append]
  cases h : f a s with
  | ok b u =>
   cases b with
   | false => rw [untilTrue_cons_false h,untilTrue_cons_false h,ih]
   | true => rw [untilTrue_cons_true h,untilTrue_cons_true h]
  | error e u => rw [untilTrue_cons_error h,untilTrue_cons_error h]

lemma Simulates.untilTrue {view : σ → τ} {g : α → EStateM ε τ Bool} (h : ∀ a, Simulates view (f a) (g a))
    (as : List α) : Simulates view (untilTrue f as) (untilTrue g as) := by
 induction as with
 | nil => exact fun _=>⟨rfl,rfl⟩
 | cons a as ih =>
  intro s
  cases hf : f a s with
  | error e u =>
   rw [untilTrue_cons_error hf,untilTrue_cons_error ((h a).eq_error hf)]
   exact ⟨rfl,rfl⟩
  | ok b u =>
   have hg:=(h a).eq_ok hf
   cases b with
   | false =>
    rw [untilTrue_cons_false hf,untilTrue_cons_false hg]
    exact ih u
   | true =>
    rw [untilTrue_cons_true hf,untilTrue_cons_true hg]
    exact ⟨rfl,rfl⟩

end

/-- A loop over a list: it ends with the list, or with what one of its rounds throws. -/
inductive Loop (f : α → EStateM ε σ β) : List α → σ → Option ε → σ → Prop where
  | done (s : σ) : Loop f [] s none s
  | next {a : α} {as : List α} {b : β} {s u v : σ} {e : Option ε} (h : f a s = .ok b u)
      (tail : Loop f as u e v) : Loop f (a :: as) s e v
  | throws {a : α} {as : List α} {s u : σ} {e : ε} (h : f a s = .error e u) : Loop f (a :: as) s (some e) u

/-- Rounds that only ever raise a view of the state, and throw without having touched it. -/
structure Raising {ν : Type} (f : α → EStateM ε σ β) (view : σ → ν) (le : ν → ν → Prop)
    (repeats refused : ν → α → Prop) : Prop where
  raises : ∀ {a b s u}, f a s = .ok b u → le (view s) (view u)
  keeps : ∀ {a b s u}, f a s = .ok b u → (view u = view s ↔ repeats (view s) a)
  accepts : ∀ {a b s u}, f a s = .ok b u → ¬ refused (view s) a
  refuses : ∀ {a e s u}, f a s = .error e u → view u = view s ∧ refused (view s) a

/-- Up to the first item that is refused, if there is one, all are repetitions. -/
def Idle (repeats refused : α → Prop) : List α → Prop
  | [] => True
  | a :: as => refused a ∨ (repeats a ∧ Idle repeats refused as)

variable {ν : Type} {f : α → EStateM ε σ β} {view : σ → ν} {le : ν → ν → Prop}
  {repeats refused : ν → α → Prop}

lemma Raising.of_cases (h : ∀ a s, (∃ e, f a s = .error e s ∧ refused (view s) a) ∨
    ∃ b u, f a s = .ok b u ∧ ¬ refused (view s) a ∧ le (view s) (view u) ∧
      (view u = view s ↔ repeats (view s) a)) : Raising f view le repeats refused where
 raises {a b s u} hok := by
  rcases h a s with ⟨e,he,_⟩|⟨_,_,hc,_,hle,_⟩
  · cases hok.symm.trans he
  · cases hok.symm.trans hc
    exact hle
 keeps {a b s u} hok := by
  rcases h a s with ⟨e,he,_⟩|⟨_,_,hc,_,_,hi⟩
  · cases hok.symm.trans he
  · cases hok.symm.trans hc
    exact hi
 accepts {a b s u} hok := by
  rcases h a s with ⟨e,he,_⟩|⟨_,_,hc,hn,_⟩
  · cases hok.symm.trans he
  · cases hok.symm.trans hc
    exact hn
 refuses {a e s u} her := by
  rcases h a s with ⟨e,he,hr⟩|⟨_,_,hc,_⟩
  · cases her.symm.trans he
    exact ⟨rfl,hr⟩
  · cases her.symm.trans hc

section
variable (hf : Raising f view le repeats refused)
include hf

lemma Loop.raises [IsPreorder ν le] {as : List α} {e : Option ε} (h : Loop f as s e u) : le (view s) (view u) := by
 induction h with
 | done s => exact refl_of le (view s)
 | next h _ ih => exact trans_of le (hf.raises h) ih
 | throws h =>
  rw [(hf.refuses h).1]
  exact refl_of le _

/-- The view is left as it was just where the loop meets only repetitions before it ends. -/
theorem Loop.view_eq_iff [IsPartialOrder ν le] {as : List α} {e : Option ε} (h : Loop f as s e u) :
    view u = view s ↔ Idle (repeats (view s)) (refused (view s)) as := by
 induction h with
 | done s => exact ⟨fun _=>trivial,fun _=>rfl⟩
 | @next a as b s u v e h tail ih =>
  constructor
  · intro hv
    have hu : view u = view s := antisymm_of le (hv ▸ tail.raises hf) (hf.raises h)
    rw [hu] at ih
    exact .inr ⟨(hf.keeps h).mp hu,ih.mp hv⟩
  · rintro (hr|⟨hre,hi⟩)
    · exact absurd hr (hf.accepts h)
    · have hu:=(hf.keeps h).mpr hre
      rw [hu] at ih
      exact ih.mpr hi
 | throws h => exact ⟨fun _=>.inl (hf.refuses h).2,fun _=>(hf.refuses h).1⟩

lemma Loop.throws_iff [IsPartialOrder ν le] {as : List α}
    {e : Option ε} (h : Loop f as s e u) (hi : Idle (repeats (view s)) (refused (view s)) as) :
    e.isSome = true ↔ ∃ a ∈ as, refused (view s) a := by
 induction h with
 | done s => simp
 | @next a as b s u v e h tail ih =>
  rcases hi with hr|⟨hre,hi⟩
  · exact absurd hr (hf.accepts h)
  · rw [(hf.keeps h).mpr hre] at ih
    rw [ih hi]
    constructor
    · intro ⟨b,hb,hr⟩
      exact ⟨b,mem_cons_of_mem a hb,hr⟩
    · intro ⟨b,hb,hr⟩
      rcases mem_cons.mp hb with rfl|hb
      · exact absurd hr (hf.accepts h)
      · exact ⟨b,hb,hr⟩
 | @throws a as s u e h =>
  exact ⟨fun _=>⟨a,mem_cons_self,(hf.refuses h).2⟩,fun _=>rfl⟩

end

end Throwing
