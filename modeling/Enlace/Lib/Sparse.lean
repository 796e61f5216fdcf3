import Mathlib.Data.Finmap
import Mathlib.Order.Interval.Finset.Nat

set_option autoImplicit false

/-! Sequences of which only some positions are known: finite maps from positions to values, filled piece
by piece and read from a position up to the first gap. -/

abbrev Sparse (α : Type) := Finmap fun _ : ℕ => α

namespace Sparse
open List Nat Finmap

variable {α : Type}

def write (m : Sparse α) (offset : ℕ) : List α → Sparse α
  | [] => m
  | a :: as => write (m.insert offset a) (offset + 1) as

def Agrees (m : Sparse α) (offset : ℕ) (data : List α) : Prop :=
  ∀ i a b, data[i]? = some a → m.lookup (offset + i) = some b → b = a

def Holds (m : Sparse α) (offset : ℕ) (data : List α) : Prop :=
  ∀ i a, data[i]? = some a → m.lookup (offset + i) = some a

def agrees [DecidableEq α] (m : Sparse α) (offset : ℕ) : List α → Bool
  | [] => true
  | a :: as => (m.lookup offset).all (· = a) && agrees m (offset + 1) as

/-- The values from a position up to the first gap, at most as many as there are rounds. -/
def contiguous (m : Sparse α) : ℕ → ℕ → List α
  | 0, _ => []
  | rounds + 1, offset =>
    match m.lookup offset with
    | none => []
    | some a => a :: contiguous m rounds (offset + 1)

variable {m : Sparse α} {data : List α} {offset : ℕ}

lemma agrees_iff [DecidableEq α] : m.agrees offset data = true ↔ Agrees m offset data := by
 induction data generalizing offset with
 | nil => simp [agrees,Agrees]
 | cons a as ih =>
  rw [agrees,Bool.and_eq_true,ih]
  constructor
  · intro ⟨hh,ht⟩ i x y hx hy
    cases i with
    | zero =>
     obtain rfl : a = x:=by simpa using hx
     rw [add_zero] at hy
     rw [hy] at hh
     simpa using hh
    | succ i =>
     refine ht i x y (by simpa using hx) ?_
     rw [← hy,add_right_comm,add_assoc]
  · intro h
    constructor
    · cases hl : m.lookup offset with
      | none => rfl
      | some b => simpa using h 0 a b rfl hl
    · intro i x y hx hy
      refine h (i+1) x y (by simpa using hx) ?_
      rw [← hy,add_right_comm,add_assoc]

variable {i p rounds : ℕ}

lemma lookup_write_of_lt (data : List α) (h : p < offset) : (m.write offset data).lookup p = m.lookup p := by
 induction data generalizing m offset with
 | nil => rfl
 | cons a as ih => rw [write,ih (by omega),lookup_insert_of_ne m (by omega)]

lemma lookup_write_add (data : List α) :
    (m.write offset data).lookup (offset + i) = (data[i]?).or (m.lookup (offset + i)) := by
 induction data generalizing m offset i with
 | nil => rfl
 | cons a as ih =>
  cases i with
  | zero =>
   rw [write,lookup_write_of_lt as (by omega),add_zero,lookup_insert]
   rfl
  | succ i =>
   rw [write,show offset+(i+1) = offset+1+i by omega,ih, lookup_insert_of_ne m (by omega),getElem?_cons_succ]

lemma lookup_write_of_le (h : offset + data.length ≤ p) : (m.write offset data).lookup p = m.lookup p := by
 obtain ⟨i,rfl⟩:=Nat.exists_eq_add_of_le (show offset ≤ p by omega)
 rw [lookup_write_add,getElem?_eq_none (by omega),Option.none_or]

lemma lookup_write_of_some (h : Agrees m offset data) {b : α}
    (hb : m.lookup p = some b) : (m.write offset data).lookup p = some b := by
 by_cases hp : p < offset
 · rw [lookup_write_of_lt data hp,hb]
 · obtain ⟨i,rfl⟩:=Nat.exists_eq_add_of_le (show offset ≤ p by omega)
   rw [lookup_write_add]
   cases ha : data[i]? with
   | none => exact hb
   | some a => rw [h i a b ha hb]; rfl

lemma mem_write : p ∈ m.write offset data ↔ p ∈ m ∨ offset ≤ p ∧ p < offset + data.length := by
 by_cases hp : p < offset
 · rw [or_iff_left (by omega),mem_iff,lookup_write_of_lt data hp,mem_iff]
 · obtain ⟨i,rfl⟩:=Nat.exists_eq_add_of_le (show offset ≤ p by omega)
   rw [mem_iff,lookup_write_add,mem_iff]
   by_cases hi : i < data.length
   · simp [hi]
   · simp [hi]

lemma write_eq_self_iff : m.write offset data = m ↔ Holds m offset data := by
 constructor
 · intro h i a ha
   rw [← h,lookup_write_add,ha]
   rfl
 · intro h
   refine ext_lookup fun p=>?_
   by_cases hp : p < offset
   · exact lookup_write_of_lt data hp
   · obtain ⟨i,rfl⟩:=Nat.exists_eq_add_of_le (show offset ≤ p by omega)
     rw [lookup_write_add]
     cases ha : data[i]? with
     | none => rfl
     | some a => exact (h i a ha).symm

lemma contiguous_of_gap (h : m.lookup offset = none) (rounds : ℕ) : m.contiguous rounds offset = [] := by
 cases rounds with
 | zero => rfl
 | succ rounds => rw [contiguous,h]

lemma contiguous_of_some {a : α} (h : m.lookup offset = some a) (rounds : ℕ) :
    m.contiguous (rounds + 1) offset = a :: m.contiguous rounds (offset + 1) := by
 rw [contiguous,h]

lemma lookup_contiguous (hi : i < (m.contiguous rounds offset).length) :
    m.lookup (offset + i) = (m.contiguous rounds offset)[i]? := by
 induction rounds generalizing offset i with
 | zero => exact absurd hi (not_lt_zero i)
 | succ rounds ih =>
  cases hl : m.lookup offset with
  | none =>
   rw [contiguous_of_gap hl] at hi
   exact absurd hi (not_lt_zero i)
  | some a =>
   rw [contiguous_of_some hl] at hi ⊢
   cases i with
   | zero => exact hl
   | succ i =>
    rw [getElem?_cons_succ,← ih (by simpa using hi),add_right_comm,add_assoc]

lemma mem_of_lt_contiguous (hi : i < (m.contiguous rounds offset).length) : offset + i ∈ m := by
 rw [mem_iff,lookup_contiguous hi]
 exact ⟨_,getElem?_eq_getElem hi⟩

lemma contiguous_length_le (m : Sparse α) (rounds offset : ℕ) : (m.contiguous rounds offset).length ≤ rounds := by
 induction rounds generalizing offset with
 | zero => exact le_refl 0
 | succ rounds ih =>
  rw [contiguous]
  split
  · exact zero_le _
  · exact succ_le_succ (ih (offset+1))

lemma lookup_contiguous_length (h : (m.contiguous rounds offset).length < rounds) :
    m.lookup (offset + (m.contiguous rounds offset).length) = none := by
 induction rounds generalizing offset with
 | zero => exact absurd h (not_lt_zero _)
 | succ rounds ih =>
  cases hl : m.lookup offset with
  | none =>
   rw [contiguous_of_gap hl]
   exact hl
  | some a =>
   rw [contiguous_of_some hl] at h ⊢
   rw [length_cons,← ih (by simpa using h),add_right_comm,add_assoc]

lemma lookup_gap (m : Sparse α) (offset : ℕ) :
    m.lookup (offset + (m.contiguous m.keys.card offset).length) = none := by
 rcases lt_or_eq_of_le (contiguous_length_le m m.keys.card offset) with hlt|heq
 · exact lookup_contiguous_length hlt
 · rw [heq,lookup_eq_none]
   intro hm
   have hs : Finset.Icc offset (offset+m.keys.card) ⊆ m.keys := by
    intro p hp
    rw [Finset.mem_Icc] at hp
    obtain ⟨i,rfl⟩:=Nat.exists_eq_add_of_le hp.1
    rcases Nat.lt_or_eq_of_le (Nat.le_of_add_le_add_left hp.2) with hi|rfl
    · exact mem_of_lt_contiguous (heq.symm ▸ hi)
    · exact hm
   have hc:=Finset.card_le_card hs
   rw [card_Icc] at hc
   omega

lemma contiguous_write (h : ∀ i, m.lookup (offset + i) = none) (data : List α) :
    (m.write offset data).contiguous (m.write offset data).keys.card offset = data := by
 have hl : ∀ i, (m.write offset data).lookup (offset+i) = data[i]? := by
  intro i
  rw [lookup_write_add,h,Option.or_none]
 have hg:=lookup_gap (m.write offset data) offset
 rw [hl,List.getElem?_eq_none_iff] at hg
 refine ext_getElem? fun i=>?_
 by_cases hi : i < ((m.write offset data).contiguous (m.write offset data).keys.card offset).length
 · rw [← lookup_contiguous hi,hl]
 · rw [getElem?_eq_none (by omega),getElem?_eq_none (by omega)]

end Sparse
