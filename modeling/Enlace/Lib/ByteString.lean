import Mathlib.Data.List.Lex
import Mathlib.Data.UInt
import Mathlib.Data.Vector.Basic
import Mathlib.Data.Prod.Lex
import Mathlib.Tactic.Ring

set_option autoImplicit false

/-! Byte strings: ASCII literals, hexadecimal, fixed-width big-endian numbers and the orders that a
comparison of machine words and of byte slices uses. -/
namespace ByteString
open List Nat UInt8

abbrev Bytes := List UInt8

abbrev Block (n : ℕ) := List.Vector UInt8 n

def ascii (s : String) : Bytes := s.toList.map fun c => UInt8.ofNat c.toNat

def hexDigit (n : UInt8) : UInt8 := if n < 10 then 0x30 + n else 0x57 + n

def hex (bs : Bytes) : Bytes := bs.flatMap fun b => [hexDigit (b / 16), hexDigit (b % 16)]

def toBlock (n : ℕ) (bs : Bytes) : Option (Block n) :=
  if h : bs.length = n then some ⟨bs, h⟩ else none

@[simp] lemma toBlock_toList {n : ℕ} (v : Block n) : toBlock n v.toList = some v :=
 dif_pos v.toList_length

/-- Two ways of cutting one list at a separator: the same cut, or one cut further right. -/
theorem append_cons_cases {α : Type} {x : α} {a b u v : List α} (h : a ++ x :: u = b ++ x :: v) :
    (a = b ∧ u = v) ∨ (∃ c, b = a ++ x :: c ∧ u = c ++ x :: v) ∨ ∃ c, a = b ++ x :: c ∧ v = c ++ x :: u := by
 rcases append_eq_append_iff.mp h with ⟨c,hb,hu⟩|⟨c,ha,hv⟩
 · cases c with
   | nil =>
    rw [append_nil] at hb
    exact .inl ⟨hb.symm,(cons.inj hu).2⟩
   | cons y c =>
    obtain ⟨rfl,hc⟩:=cons.inj hu
    exact .inr (.inl ⟨c,hb,hc⟩)
 · cases c with
   | nil =>
    rw [append_nil] at ha
    exact .inl ⟨ha,(cons.inj hv).2.symm⟩
   | cons y c =>
    obtain ⟨rfl,hc⟩:=cons.inj hv
    exact .inr (.inr ⟨c,ha,hc⟩)

instance linearOrderUInt8 : LinearOrder UInt8 where
  le_refl := UInt8.le_refl
  le_trans _ _ _ := UInt8.le_trans
  lt_iff_le_not_ge a b := by rw [UInt8.lt_iff_toNat_lt, UInt8.le_iff_toNat_le, UInt8.le_iff_toNat_le]; omega
  le_antisymm _ _ := UInt8.le_antisymm
  le_total := UInt8.le_total
  toDecidableLE := inferInstance
  toDecidableLT := inferInstance
  toDecidableEq := inferInstance

instance linearOrderUInt64 : LinearOrder UInt64 where
  le_refl := UInt64.le_refl
  le_trans _ _ _ := UInt64.le_trans
  lt_iff_le_not_ge a b := by rw [UInt64.lt_iff_toNat_lt, UInt64.le_iff_toNat_le, UInt64.le_iff_toNat_le]; omega
  le_antisymm _ _ := UInt64.le_antisymm
  le_total := UInt64.le_total
  toDecidableLE := inferInstance
  toDecidableLT := inferInstance
  toDecidableEq := inferInstance

def beBytes : ℕ → ℕ → Bytes
  | 0, _ => []
  | w+1, n => UInt8.ofNat (n / 256^w) :: beBytes w n

def ofBeBytes : Bytes → ℕ
  | [] => 0
  | b :: bs => b.toNat * 256^bs.length + ofBeBytes bs

@[simp] lemma beBytes_length (w n : ℕ) : (beBytes w n).length = w := by
 induction w with
 | zero => rfl
 | succ w ih => simp only [beBytes,length_cons,ih]

lemma ofBeBytes_beBytes (w n : ℕ) : ofBeBytes (beBytes w n) = n % 256^w := by
 induction w with
 | zero => simp [beBytes,ofBeBytes,mod_one]
 | succ w ih =>
  simp only [beBytes,ofBeBytes,beBytes_length,ih,toNat_ofNat',reducePow]
  rw [pow_succ,mod_mul]
  ring

lemma ofBeBytes_beBytes_of_lt (w n : ℕ) (h : n < 256^w) : ofBeBytes (beBytes w n) = n := by
 rw [ofBeBytes_beBytes,mod_eq_of_lt h]

def be64 (v : UInt64) : Bytes := beBytes 8 v.toNat

@[simp] lemma be64_length (v : UInt64) : (be64 v).length = 8 := beBytes_length 8 _

def ofBe64 (bs : Bytes) : UInt64 := UInt64.ofNat (ofBeBytes bs)

@[simp] lemma ofBe64_be64 (v : UInt64) : ofBe64 (be64 v) = v := by
 rw [ofBe64,be64,ofBeBytes_beBytes_of_lt 8 _ (by simpa using v.toNat_lt),UInt64.ofNat_toNat]

lemma ofBeBytes_lt (bs : Bytes) : ofBeBytes bs < 256^bs.length := by
 induction bs with
 | nil => simp [ofBeBytes]
 | cons b bs ih =>
  have hb:=b.toNat_lt
  have hm : (b.toNat+1) * 256^bs.length ≤ 256 * 256^bs.length := mul_le_mul_right _ (by omega)
  simp only [ofBeBytes,length_cons,pow_succ]
  rw [add_mul] at hm
  omega

lemma beBytes_add_mul (w j n k : ℕ) (h : w ≤ j) : beBytes w (n + k*256^j) = beBytes w n := by
 induction w with
 | zero => rfl
 | succ w ih =>
  have hj : k*256^j = (k*256^(j-w-1)*256)*256^w := by
   rw [mul_assoc,← pow_succ',mul_assoc,← pow_add]
   congr 2
   omega
  have head : ofNat ((n+k*256^j) / 256^w) = ofNat (n / 256^w) := by
   rw [hj,Nat.add_mul_div_right _ _ (Nat.pow_pos (by decide))]
   apply UInt8.toNat_inj.mp
   simp only [UInt8.toNat_ofNat',reducePow]
   omega
  simp only [beBytes,head,ih (by omega)]

lemma beBytes_ofBeBytes (bs : Bytes) : beBytes bs.length (ofBeBytes bs) = bs := by
 induction bs with
 | nil => rfl
 | cons b bs ih =>
  have hlt:=ofBeBytes_lt bs
  have head : (b.toNat*256^bs.length+ofBeBytes bs) / 256^bs.length = b.toNat := by
   rw [Nat.mul_comm,Nat.mul_add_div (Nat.pow_pos (by decide)),Nat.div_eq_of_lt hlt,Nat.add_zero]
  simp only [length_cons,ofBeBytes,beBytes,head,UInt8.ofNat_toNat]
  rw [add_comm,beBytes_add_mul _ _ _ _ (le_refl _),ih]

lemma be64_ofBe64 (bs : Bytes) (h : bs.length = 8) : be64 (ofBe64 bs) = bs := by
 have hlt:=ofBeBytes_lt bs
 rw [h] at hlt
 rw [be64,ofBe64,UInt64.toNat_ofNat_of_lt' (by simpa using hlt),← h]
 exact beBytes_ofBeBytes bs

end ByteString
