import Mathlib.Logic.Basic

set_option autoImplicit false

/-! Computations that return a value, return an error, or abort. -/
namespace Fallible
open List Except

inductive Fault (ε : Type) where
  | error (e : ε)
  | abort
  deriving DecidableEq

abbrev Res (ε α : Type) := Except (Fault ε) α

variable {ε ε' α β : Type}

def fail (e : ε) : Res ε α := .error (.error e)

def ensure (c : Bool) (e : ε) : Res ε Unit := if c then .ok () else fail e

def okOr (e : ε) : Option α → Res ε α
  | none => fail e
  | some a => .ok a

/-- A missing value aborts, as an unwrapped `None` does. -/
def expect : Option α → Res ε α
  | none => .error .abort
  | some a => .ok a

def mapErr (f : ε → ε') : Res ε α → Res ε' α
  | .ok a => .ok a
  | .error (.error e) => fail (f e)
  | .error .abort => .error .abort

def toOption : Res ε α → Option α
  | .ok a => some a
  | .error _ => none

@[simp] lemma bind_eq_ok {x : Except ε α} {f : α → Except ε β} {b : β} :
    (x >>= f) = .ok b ↔ ∃ a, x = .ok a ∧ f a = .ok b := by
 cases x with
 | error e => exact ⟨(nomatch ·),fun ⟨_,h,_⟩=>(nomatch h)⟩
 | ok a => exact ⟨fun h=>⟨a,rfl,h⟩,fun ⟨_,h,hb⟩=>ok.inj h ▸ hb⟩

instance decidableExistsOk {x : Except ε α} {P : α → Prop} [DecidablePred P] : Decidable (∃ a, x = .ok a ∧ P a) :=
  match x with
  | .error _ => isFalse fun ⟨_, h, _⟩ => nomatch h
  | .ok a => decidable_of_iff (P a) ⟨fun h => ⟨a, rfl, h⟩, fun ⟨_, h, hP⟩ => ok.inj h ▸ hP⟩

instance decidableExistsOkExists {x : Except ε α} {P : α → β → Prop} [∀ a, Decidable (∃ b, P a b)] :
    Decidable (∃ a b, x = .ok a ∧ P a b) :=
  decidable_of_iff (∃ a, x = .ok a ∧ ∃ b, P a b) (by simp only [exists_and_left])

instance decidableEqError [DecidableEq ε] {x : Except ε α} {e : ε} : Decidable (x = .error e) :=
  match x with
  | .error d => decidable_of_iff (d = e) ⟨congrArg _, error.inj⟩
  | .ok _ => isFalse fun h => nomatch h

lemma exists_ok_and {x : Except ε α} {P Q : α → Prop} (h : ∃ a, x = .ok a ∧ P a) (hQ : ∀ a, x = .ok a → P a → Q a) :
    ∃ a, x = .ok a ∧ Q a := by
 obtain ⟨a,ha,hP⟩:=h
 exact ⟨a,ha,hQ a ha hP⟩

@[simp] lemma ok_bind (a : α) (f : α → Except ε β) : ((.ok a : Except ε α) >>= f) = f a := rfl

@[simp] lemma error_bind (e : ε) (f : α → Except ε β) : ((.error e : Except ε α) >>= f) = .error e := rfl

@[simp] lemma mapErr_ok (f : ε → ε') (a : α) : mapErr f (.ok a : Res ε α) = .ok a := rfl

@[simp] lemma ensure_true (e : ε) : ensure true e = .ok () := rfl

@[simp] lemma okOr_some (e : ε) (a : α) : okOr e (some a) = .ok a := rfl

@[simp] lemma ensure_eq_ok {c : Bool} {e : ε} {u : Unit} : ensure c e = .ok u ↔ c = true := by
 cases c <;> simp [ensure,fail]

variable {a : α}

@[simp] lemma okOr_eq_ok {e : ε} {x : Option α} : okOr e x = .ok a ↔ x = some a := by
 cases x <;> simp [okOr,fail]

@[simp] lemma expect_eq_ok {x : Option α} : (expect x : Res ε α) = .ok a ↔ x = some a := by
 cases x <;> simp [expect]

variable {x : Res ε α}

@[simp] lemma mapErr_eq_ok {f : ε → ε'} : mapErr f x = .ok a ↔ x = .ok a := by
 rcases x with (e|_)|a <;> simp [mapErr,fail]

lemma mapErr_eq_fail {f : ε → ε'} {e' : ε'} (h : mapErr f x = fail e') : ∃ e, x = fail e ∧ f e = e' := by
 match x, h with
 | .error (.error e), h => exact ⟨e,rfl,Fault.error.inj (error.inj h)⟩

@[simp] lemma toOption_eq_some : toOption x = some a ↔ x = .ok a := by
 cases x <;> simp [toOption]

@[simp] lemma pure_eq_ok {b : α} : (pure a : Except ε α) = .ok b ↔ a = b :=
 ⟨ok.inj,congrArg _⟩

lemma map_eq_ok {f : α → β} {x : Except ε α} {b : β} : f <$> x = .ok b ↔ ∃ a, x = .ok a ∧ f a = b := by
 cases x with
 | error e => exact ⟨(nomatch ·),fun ⟨_,h,_⟩=>nomatch h⟩
 | ok a => exact ⟨fun h=>⟨a,rfl,ok.inj h⟩,fun ⟨_,h,hb⟩=>by cases h; rw [← hb]; rfl⟩

variable {f : β → Except ε α}

lemma mapM_map_ok {g : α → β} {l : List α} (h : ∀ a ∈ l, f (g a) = .ok a) : (l.map g).mapM f = .ok l := by
 induction l with
 | nil => rfl
 | cons a l ih =>
  rw [map_cons,mapM_cons,h a mem_cons_self,ih fun b hb=>h b (mem_cons_of_mem _ hb)]
  rfl

variable {l' : List α} {l : List β}

lemma ok_of_mapM_ok (h : l.mapM f = .ok l') {b : β} (hb : b ∈ l) : ∃ a ∈ l', f b = .ok a := by
 induction l generalizing l' with
 | nil => cases hb
 | cons c l ih =>
  rw [mapM_cons] at h
  simp only [bind_eq_ok,pure_eq_ok] at h
  obtain ⟨a,ha,as,has,rfl⟩:=h
  rcases mem_cons.mp hb with rfl|hb
  · exact ⟨a,mem_cons_self,ha⟩
  · obtain ⟨x,hx,hok⟩:=ih has hb
    exact ⟨x,mem_cons_of_mem _ hx,hok⟩

lemma mem_of_mapM_ok (h : l.mapM f = .ok l') (ha : a ∈ l') : ∃ b ∈ l, f b = .ok a := by
 induction l generalizing l' with
 | nil =>
  rw [← ok.inj h] at ha
  cases ha
 | cons c l ih =>
  rw [mapM_cons] at h
  simp only [bind_eq_ok,pure_eq_ok] at h
  obtain ⟨x,hx,xs,hxs,rfl⟩:=h
  rcases mem_cons.mp ha with rfl|ha
  · exact ⟨c,mem_cons_self,hx⟩
  · obtain ⟨b,hb,hba⟩:=ih hxs ha
    exact ⟨b,mem_cons_of_mem _ hb,hba⟩

lemma find?_of_mapM_ok {p : β → Bool} {q : α → Bool}
    (hpq : ∀ b a, f b = .ok a → q a = p b) (h : l.mapM f = .ok l') {b : β}
    (hb : l.find? p = some b) : ∃ a, f b = .ok a ∧ l'.find? q = some a := by
 induction l generalizing l' with
 | nil => cases hb
 | cons c l ih =>
  rw [mapM_cons] at h
  simp only [bind_eq_ok,pure_eq_ok] at h
  obtain ⟨a,ha,as,has,rfl⟩:=h
  have hq:=hpq c a ha
  cases hp : p c with
  | true =>
   rw [find?_cons_of_pos hp,Option.some.injEq] at hb
   subst hb
   exact ⟨a,ha,find?_cons_of_pos (hq.trans hp)⟩
  | false =>
   rw [find?_cons_of_neg (by rw [hp]; decide)] at hb
   obtain ⟨a',ha',hf⟩:=ih has hb
   refine ⟨a',ha',?_⟩
   rw [find?_cons_of_neg (by rw [hq,hp]; decide),hf]

lemma ne_nil_of_mapM_ok (h : l.mapM f = .ok l') (hl : l ≠ []) : l' ≠ [] := by
 cases l with
 | nil => exact absurd rfl hl
 | cons b l =>
  rw [mapM_cons] at h
  simp only [bind_eq_ok,pure_eq_ok] at h
  obtain ⟨a,_,as,_,rfl⟩:=h
  exact cons_ne_nil a as

def NoAbort (x : Res ε α) : Prop := x ≠ .error .abort

instance decidableNoAbort : (x : Res ε α) → Decidable (NoAbort x)
  | .ok _ => .isTrue nofun
  | .error (.error _) => .isTrue nofun
  | .error .abort => .isFalse fun h => h rfl

lemma eq_abort_of_not (h : ¬ NoAbort x) : x = .error .abort := not_not.mp h

@[simp] lemma noAbort_ok (a : α) : NoAbort (.ok a : Res ε α) := nofun

@[simp] lemma noAbort_fail (e : ε) : NoAbort (fail e : Res ε α) :=
 fun h=>nomatch error.inj h

@[simp] lemma noAbort_ensure (c : Bool) (e : ε) : NoAbort (ensure c e) := by
 cases c with
 | false => exact noAbort_fail e
 | true => exact noAbort_ok ()

@[simp] lemma noAbort_okOr (e : ε) (x : Option α) : NoAbort (okOr e x) := by
 cases x with
 | none => exact noAbort_fail e
 | some a => exact noAbort_ok a

@[simp] lemma noAbort_expect {x : Option α} : NoAbort (expect x : Res ε α) ↔ x.isSome = true := by
 cases x with
 | none => simp [NoAbort,expect]
 | some a => simp [expect]

@[simp] lemma noAbort_mapErr {f : ε → ε'} : NoAbort (mapErr f x) ↔ NoAbort x := by
 match x with
 | .ok a => simp [mapErr]
 | .error (.error e) => simp [mapErr,NoAbort,fail]
 | .error .abort => simp [mapErr,NoAbort]

@[simp] lemma noAbort_map {f : α → β} : NoAbort (f <$> x) ↔ NoAbort x := by
 cases x with
 | ok a => simp [Functor.map,Except.map]
 | error e => simp [NoAbort,Functor.map,Except.map]

@[simp] lemma noAbort_bind {f : α → Res ε β} : NoAbort (x >>= f) ↔ NoAbort x ∧ ∀ a, x = .ok a → NoAbort (f a) := by
 cases x with
 | ok a => simp
 | error e => simp [NoAbort]

/-- A loop body, or a loop, returned early with the given result or ran to its end. -/
inductive Exits {ρ σ : Type} : Except ρ σ → Option ρ → Prop where
  | early (r : ρ) : Exits (.error r) (some r)
  | runs (s : σ) : Exits (.ok s) none

/-- A loop whose early returns do not depend on what it accumulates returns at its first hit. -/
theorem exits_foldlM {ρ σ : Type} {f : σ → α → Except ρ σ} {hit : α → Option ρ}
    (hf : ∀ s a, Exits (f s a) (hit a)) (l : List α) (s : σ) : Exits (l.foldlM f s) (l.findSome? hit) := by
 induction l generalizing s with
 | nil => exact .runs s
 | cons a l ih =>
  rw [foldlM_cons,findSome?_cons]
  have h:=hf s a
  generalize f s a = x at h ⊢
  generalize hit a = o at h ⊢
  cases h with
  | early r => exact .early r
  | runs s => exact ih s

end Fallible
