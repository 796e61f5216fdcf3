import Mathlib.Data.List.AList

set_option autoImplicit false

/-! Finite maps whose entries relate key and value, and the map collected from a list. -/
namespace Table
open List

variable {κ V α : Type} [DecidableEq κ]

structure Keyed (κ V : Type) (ok : κ → V → Prop) where
  table : AList fun _ : κ => V
  keyed : ∀ e ∈ table.entries, ok e.1 e.2

abbrev Map (κ V : Type) := Keyed κ V fun _ _ => True

namespace Keyed

variable {ok : κ → V → Prop}

def empty : Keyed κ V ok := ⟨∅, fun _ h => absurd h List.not_mem_nil⟩

def get (m : Keyed κ V ok) (k : κ) : Option V := m.table.lookup k

def entries (m : Keyed κ V ok) : List (κ × V) := m.table.entries.map fun e => (e.1, e.2)

variable {m : Keyed κ V ok} {k : κ}

lemma get_eq_some {v : V} : m.get k = some v ↔ (k, v) ∈ m.entries := by
 have hm : (k,v) ∈ m.entries ↔ (⟨k,v⟩ : Sigma fun _ : κ=>V) ∈ m.table.entries := by
  constructor
  · intro h
    obtain ⟨⟨k',v'⟩,he,heq⟩:=mem_map.mp h
    cases heq
    exact he
  · exact fun h=>mem_map.mpr ⟨_,h,rfl⟩
 rw [hm]
 exact AList.mem_lookup_iff

omit [DecidableEq κ] in
lemma ok_of_mem {e : κ × V} (h : e ∈ m.entries) : ok e.1 e.2 := by
 obtain ⟨e',he,rfl⟩:=mem_map.mp h
 exact m.keyed e' he

lemma ok_of_get {v : V} (h : m.get k = some v) : ok k v :=
 ok_of_mem (get_eq_some.mp h)

omit [DecidableEq κ] in
lemma nodup_entries (m : Keyed κ V ok) : (m.entries.map Prod.fst).Nodup := by
 have h : m.entries.map Prod.fst = m.table.keys := by
  rw [entries,map_map]
  rfl
 rw [h]
 exact m.table.keys_nodup

def insert (m : Keyed κ V ok) (k : κ) (v : V) (h : ok k v) : Keyed κ V ok where
  table := m.table.insert k v
  keyed e he := by
    rw [AList.entries_insert] at he
    rcases List.mem_cons.mp he with rfl | he
    · exact h
    · exact m.keyed e ((List.kerase_sublist k m.table.entries).subset he)

def erase (m : Keyed κ V ok) (k : κ) : Keyed κ V ok where
  table := m.table.erase k
  keyed e he := m.keyed e ((List.kerase_sublist k m.table.entries).subset he)

lemma get_insert (m : Keyed κ V ok) (k k' : κ) (v : V) (h : ok k v) :
    (m.insert k v h).get k' = if k' = k then some v else m.get k' := by
 by_cases he : k' = k
 · subst he
   rw [if_pos rfl]
   exact AList.lookup_insert _
 · rw [if_neg he]
   exact AList.lookup_insert_ne he

lemma get_erase (m : Keyed κ V ok) (k k' : κ) : (m.erase k).get k' = if k' = k then none else m.get k' := by
 by_cases he : k' = k
 · subst he
   rw [if_pos rfl]
   exact AList.lookup_erase _ _
 · rw [if_neg he]
   exact AList.lookup_erase_ne he

lemma get_erase_of_absent (h : (m.get k).isSome = false) (k' : κ) : (m.erase k).get k' = m.get k' := by
 rw [get_erase]
 split
 · rename_i he
   rw [he]
   exact (Option.not_isSome_iff_eq_none.mp (by rw [h]; decide)).symm
 · rfl

lemma get_insert_of_present {v : V} (hv : m.get k = some v) (h : ok k v)
    (k' : κ) : (m.insert k v h).get k' = m.get k' := by
 rw [get_insert]
 split
 · rename_i he
   rw [he,hv]
 · rfl

def collect (key : α → κ) (val : α → V) (h : ∀ a, ok (key a) (val a)) (l : List α) : Keyed κ V ok :=
  l.foldl (fun m a => m.insert (key a) (val a) (h a)) empty

variable {key : α → κ} {val : α → V} {h : ∀ a, ok (key a) (val a)}

lemma mem_of_get_foldl (l : List α) (m : Keyed κ V ok) {v : V}
    (hv : (l.foldl (fun m a => m.insert (key a) (val a) (h a)) m).get k = some v) :
    (∃ a ∈ l, val a = v) ∨ m.get k = some v := by
 induction l generalizing m with
 | nil => exact .inr hv
 | cons a l ih =>
  rcases ih _ hv with ⟨b,hb,hbv⟩|hv
  · exact .inl ⟨b,mem_cons_of_mem _ hb,hbv⟩
  · rw [get_insert] at hv
    split at hv
    · exact .inl ⟨a,mem_cons_self,Option.some.inj hv⟩
    · exact .inr hv

lemma mem_of_get_collect {l : List α} {v : V} (hv : (collect key val h l).get k = some v) : ∃ a ∈ l, val a = v :=
 (mem_of_get_foldl l empty hv).resolve_right nofun

lemma get_foldl (l : List α) (nodup : (l.map key).Nodup) (m : Keyed κ V ok) (k : κ) (v : V) :
    (l.foldl (fun m a => m.insert (key a) (val a) (h a)) m).get k = some v ↔
      (∃ a ∈ l, key a = k ∧ val a = v) ∨ ((∀ a ∈ l, key a ≠ k) ∧ m.get k = some v) := by
 induction l generalizing m with
 | nil => simp
 | cons a l ih =>
  rw [map_cons,nodup_cons] at nodup
  rw [foldl_cons,ih nodup.2,get_insert]
  have hf : ∀ b ∈ l, key b ≠ key a := fun b hb he=>
   nodup.1 (mem_map.mpr ⟨b,hb,he⟩)
  by_cases hk : k = key a
  · subst hk
    rw [if_pos rfl]
    constructor
    · rintro (⟨b,hb,hke,_⟩|⟨_,hv⟩)
      · exact absurd hke (hf b hb)
      · exact .inl ⟨a,mem_cons_self,rfl,Option.some.inj hv⟩
    · rintro (⟨b,hb,hke,hva⟩|⟨ha,_⟩)
      · rcases mem_cons.mp hb with rfl|hb
        · exact .inr ⟨hf,congrArg some hva⟩
        · exact absurd hke (hf b hb)
      · exact absurd rfl (ha a mem_cons_self)
  · rw [if_neg hk]
    constructor
    · rintro (⟨b,hb,hkv⟩|⟨ha,hv⟩)
      · exact .inl ⟨b,mem_cons_of_mem _ hb,hkv⟩
      · refine .inr ⟨?_,hv⟩
        intro b hb
        rcases mem_cons.mp hb with rfl|hb
        · exact fun he=>hk he.symm
        · exact ha b hb
    · rintro (⟨b,hb,hke,hva⟩|⟨ha,hv⟩)
      · rcases mem_cons.mp hb with rfl|hb
        · exact absurd hke.symm hk
        · exact .inl ⟨b,hb,hke,hva⟩
      · exact .inr ⟨fun b hb=>ha b (mem_cons_of_mem _ hb),hv⟩

lemma get_collect_entries (m : Keyed κ V ok) (f : κ × V → α)
    (hkey : ∀ e ∈ m.entries, key (f e) = e.1) (hva : ∀ e ∈ m.entries, val (f e) = e.2) (k : κ) :
    (collect key val h (m.entries.map f)).get k = m.get k := by
 have hke : (m.entries.map f).map key = m.entries.map Prod.fst := by
  rw [map_map]
  exact map_congr_left hkey
 have hi : ∀ v, (collect key val h (m.entries.map f)).get k = some v ↔ m.get k = some v := by
  intro v
  rw [collect,get_foldl _ (hke ▸ m.nodup_entries),get_eq_some (m := m)]
  constructor
  · rintro (⟨a,ha,hk,hv⟩|⟨_,hem⟩)
    · obtain ⟨e,he,rfl⟩:=mem_map.mp ha
      rw [hkey e he] at hk
      rw [hva e he] at hv
      subst hk hv
      exact he
    · cases hem
  · intro he
    exact .inl ⟨f (k,v),mem_map_of_mem he,hkey _ he,hva _ he⟩
 exact Option.ext hi

lemma get_collect_self (m : Map κ V) (k : κ) :
    (collect Prod.fst Prod.snd (fun _ => trivial) m.entries : Map κ V).get k = m.get k := by
 rw [← map_id m.entries]
 exact m.get_collect_entries id (fun _ _=>rfl) (fun _ _=>rfl) k

lemma get_foldl_erase {l : List κ} (hk : k ∉ l) (m : Keyed κ V ok) : (l.foldl erase m).get k = m.get k := by
 induction l generalizing m with
 | nil => rfl
 | cons k' l ih =>
  rw [foldl_cons,ih (not_mem_of_not_mem_cons hk),get_erase,if_neg (ne_of_not_mem_cons hk)]

end Keyed
end Table

/-! A map of which one part is durable and the rest is a log of later insertions. A crash keeps
the durable part and some beginning of the log, so what survives every crash is what holds of
every such view. -/
namespace DurableLog
open Table List

variable {κ V : Type} [DecidableEq κ]

structure Store (κ V : Type) where
  durable : Map κ V
  log : List (κ × V)

namespace Store

def replay (m : Map κ V) (log : List (κ × V)) : Map κ V :=
  log.foldl (fun m e => m.insert e.1 e.2 trivial) m

def view (s : Store κ V) (n : ℕ) : Map κ V := replay s.durable (s.log.take n)

def current (s : Store κ V) : Map κ V := replay s.durable s.log

def insert (s : Store κ V) (k : κ) (v : V) : Store κ V := { s with log := s.log ++ [(k, v)] }

def persist (s : Store κ V) (n : ℕ) : Store κ V := ⟨s.view n, s.log.drop n⟩

def flush (s : Store κ V) : Store κ V := s.persist s.log.length

def Always (p : Map κ V → Prop) (s : Store κ V) : Prop := ∀ n, p (s.view n)

variable {s : Store κ V} {p : Map κ V → Prop}

lemma view_of_le {n : ℕ} (h : s.log.length ≤ n) : s.view n = s.current := by
 rw [view,take_of_length_le h]
 rfl

lemma current_insert (k : κ) (v : V) : (s.insert k v).current = s.current.insert k v trivial := by
 change replay s.durable (s.log ++ [(k,v)]) = _
 rw [replay,foldl_append]
 rfl

lemma view_persist (n j : ℕ) : (s.persist n).view j = s.view (n + j) := by
 change replay (replay s.durable (s.log.take n)) ((s.log.drop n).take j) = _
 rw [view,take_add,replay,replay,replay,foldl_append]

lemma current_persist (n : ℕ) : (s.persist n).current = s.current := by
 have hl : (s.persist n).log.length ≤ s.log.length := by
  change (s.log.drop n).length ≤ _
  rw [length_drop]
  omega
 rw [← view_of_le hl,view_persist,view_of_le (by omega)]

lemma Always.current (h : s.Always p) : p s.current := view_of_le (le_refl s.log.length) ▸ h _

lemma Always.insert {k : κ} {v : V} (h : s.Always p) (hv : p (s.current.insert k v trivial)) :
    (s.insert k v).Always p := by
 intro n
 by_cases hn : n ≤ s.log.length
 · have ht : (s.insert k v).view n = s.view n := by
    change replay s.durable ((s.log ++ [(k,v)]).take n) = _
    rw [take_append_of_le_length hn]
    rfl
   rw [ht]
   exact h n
 · have hl : (s.insert k v).log.length ≤ n := by
    change (s.log ++ [(k,v)]).length ≤ n
    rw [length_append,length_singleton]
    omega
   rw [view_of_le hl,current_insert]
   exact hv

lemma Always.persist (h : s.Always p) (n : ℕ) : (s.persist n).Always p := by
 intro j
 rw [view_persist]
 exact h _

lemma always_flush (h : p s.current) : s.flush.Always p := by
 intro j
 rw [flush,view_persist,view_of_le (Nat.le_add_right _ _)]
 exact h

end Store
end DurableLog

/-! Sets and maps that list their elements in the order in which they were added. -/
namespace OrderedSet
open List

variable {α : Type*} [DecidableEq α]

def add (s : List α) (a : α) : List α := if a ∈ s then s else s ++ [a]

def delete (s : List α) (a : α) : List α := s.filter (· ≠ a)

def has (s : List α) (a : α) : Bool := decide (a ∈ s)

variable {s : List α}

@[simp] lemma has_eq_true {a : α} : has s a = true ↔ a ∈ s := decide_eq_true_iff

@[simp] lemma mem_add {a b : α} : b ∈ add s a ↔ b ∈ s ∨ b = a := by
 unfold add
 split_ifs with h
 · constructor
   · exact Or.inl
   · rintro (hb|rfl)
     · exact hb
     · exact h
 · simp

@[simp] lemma mem_delete {a b : α} : b ∈ delete s a ↔ b ∈ s ∧ b ≠ a := by
 simp [delete]

lemma length_add_le (s : List α) (a : α) : (add s a).length ≤ s.length + 1 := by
 unfold add
 split_ifs
 · exact Nat.le_succ _
 · exact Nat.le_of_eq length_append

lemma length_delete_lt {a : α} (h : a ∈ s) : (delete s a).length < s.length :=
 length_filter_lt_length_iff_exists.mpr ⟨a,h,by simp⟩

lemma delete_add {a b : α} (hne : b ≠ a) (s : List α) : delete (add s b) a = add (delete s a) b := by
 unfold add
 by_cases h : b ∈ s
 · rw [if_pos h,if_pos (mem_delete.mpr ⟨h,hne⟩)]
 · rw [if_neg h,if_neg fun hm=>h (mem_delete.mp hm).1]
   simp [delete,hne]

lemma delete_delete (s : List α) (a b : α) : delete (delete s b) a = delete (delete s a) b := by
 unfold delete
 rw [filter_filter,filter_filter]
 exact congrArg (s.filter ·) (funext fun c=>Bool.and_comm _ _)

end OrderedSet

namespace OrderedMap

variable {κ β : Type*} [DecidableEq κ]

def get (m : List (κ × β)) (k : κ) : Option β := (m.find? fun entry => entry.1 = k).map Prod.snd

def set (m : List (κ × β)) (k : κ) (v : β) : List (κ × β) :=
  if ∃ entry ∈ m, entry.1 = k then m.map fun entry => if entry.1 = k then (k, v) else entry
  else m ++ [(k, v)]

def delete (m : List (κ × β)) (k : κ) : List (κ × β) := m.filter fun entry => entry.1 ≠ k

@[simp] lemma get_nil (k : κ) : get ([] : List (κ × β)) k = none := rfl

open List

lemma get_cons (entry : κ × β) (m : List (κ × β)) (k : κ) :
    get (entry :: m) k = if entry.1 = k then some entry.2 else get m k := by
 unfold get
 split_ifs with h <;> simp [h]

variable {m : List (κ × β)}

lemma get_eq_none_iff {k : κ} : get m k = none ↔ k ∉ m.map Prod.fst := by
 induction m with
 | nil => simp
 | cons entry m ih =>
  rw [get_cons]
  split_ifs with h
  · simp [h]
  · simp [ih,Ne.symm h]

lemma mem_of_get {k : κ} {v : β} (h : get m k = some v) : (k, v) ∈ m := by
 induction m with
 | nil => cases h
 | cons entry m ih =>
  rw [get_cons] at h
  split_ifs at h with hk
  · cases h
    subst hk
    exact mem_cons_self
  · exact mem_cons_of_mem _ (ih h)

lemma get_of_mem {k : κ} {v : β} (hn : (m.map Prod.fst).Nodup) (h : (k, v) ∈ m) : get m k = some v := by
 induction m with
 | nil => cases h
 | cons entry m ih =>
  rw [map_cons,nodup_cons] at hn
  rw [get_cons]
  rcases mem_cons.mp h with rfl|ht
  · exact if_pos rfl
  · have hne : entry.1 ≠ k := by
     intro heq
     have hk : k ∈ m.map Prod.fst := mem_map.mpr ⟨(k,v),ht,rfl⟩
     exact hn.1 (heq ▸ hk)
    rw [if_neg hne]
    exact ih hn.2 ht

lemma get_append (m n : List (κ × β)) (k : κ) : get (m ++ n) k = (get m k).or (get n k) := by
 induction m with
 | nil => rfl
 | cons entry m ih =>
  rw [cons_append,get_cons,get_cons,ih]
  split_ifs
  · rfl
  · rfl

lemma get_set (m : List (κ × β)) (k j : κ) (v : β) : get (set m k v) j = if k = j then some v else get m j := by
 unfold set
 split_ifs with hm hk hk
 · subst hk
   induction m with
   | nil => obtain ⟨_,h,_⟩:=hm; cases h
   | cons entry m ih =>
    rw [map_cons,get_cons]
    by_cases he : entry.1 = k
    · simp [he]
    · rw [if_neg he,if_neg he]
      obtain ⟨other,ho,heq⟩:=hm
      rcases mem_cons.mp ho with rfl|ht
      · exact absurd heq he
      · exact ih ⟨other,ht,heq⟩
 · clear hm
   induction m with
   | nil => rfl
   | cons entry m ih =>
    rw [map_cons,get_cons,get_cons,ih]
    by_cases he : entry.1 = k
    · rw [if_pos he,if_neg hk,if_neg fun heq=>hk (he.symm.trans heq)]
    · rw [if_neg he]
 · subst hk
   rw [get_append,get_eq_none_iff.mpr fun h=>?_,get_cons]
   · simp
   · obtain ⟨entry,he,heq⟩:=mem_map.mp h
     exact hm ⟨entry,he,heq⟩
 · rw [get_append,get_cons,if_neg hk,get_nil,Option.or_none]

lemma get_delete (m : List (κ × β)) (k j : κ) : get (delete m k) j = if k = j then none else get m j := by
 unfold delete
 induction m with
 | nil => simp
 | cons entry m ih =>
  by_cases he : entry.1 = k
  · rw [filter_cons_of_neg (by simp [he]),ih,get_cons,he]
    split_ifs
    · rfl
    · rfl
  · rw [filter_cons_of_pos (by simp [he]),get_cons,get_cons,ih]
    split_ifs with hk ho
    · exact absurd (hk.trans ho.symm) he
    · rfl
    · rfl
    · rfl

lemma get_map {γ : Type*} (f : β → γ) (m : List (κ × β)) (k : κ) :
    get (m.map fun entry => (entry.1, f entry.2)) k = (get m k).map f := by
 induction m with
 | nil => rfl
 | cons entry m ih =>
  rw [map_cons,get_cons,get_cons,ih]
  split_ifs
  · rfl
  · rfl

lemma get_filter (hn : (m.map Prod.fst).Nodup) (p : β → Bool) (k : κ) :
    get (m.filter fun entry => p entry.2) k = (get m k).filter p := by
 induction m with
 | nil => rfl
 | cons entry m ih =>
  rw [map_cons,nodup_cons] at hn
  rw [get_cons]
  by_cases hp : p entry.2 = true
  · rw [filter_cons,if_pos hp,get_cons,ih hn.2]
    split_ifs
    · simp [Option.filter,hp]
    · rfl
  · rw [filter_cons,if_neg hp,ih hn.2]
    split_ifs with hk
    · rw [get_eq_none_iff.mpr (hk ▸ hn.1)]
      simp [Option.filter,hp]
    · rfl

lemma keys_set (m : List (κ × β)) (k : κ) (v : β) :
    (set m k v).map Prod.fst = if k ∈ m.map Prod.fst then m.map Prod.fst else m.map Prod.fst ++ [k] := by
 unfold set
 have hi : (∃ entry ∈ m, entry.1 = k) ↔ k ∈ m.map Prod.fst := mem_map.symm
 by_cases hm : k ∈ m.map Prod.fst
 · rw [if_pos (hi.mpr hm),if_pos hm,map_map]
   refine map_congr_left fun entry _=>?_
   by_cases he : entry.1 = k
   · simp [he]
   · simp [he]
 · rw [if_neg (hi.not.mpr hm),if_neg hm,map_append]
   rfl

lemma nodup_keys_set (h : (m.map Prod.fst).Nodup) (k : κ) (v : β) : ((set m k v).map Prod.fst).Nodup := by
 rw [keys_set]
 split_ifs with hm
 · exact h
 · refine nodup_append.mpr ⟨h,by simp,fun a ha b hb heq=>hm ?_⟩
   rw [mem_singleton.mp hb] at heq
   exact heq ▸ ha

omit [DecidableEq κ] in
lemma nodup_keys_filter (h : (m.map Prod.fst).Nodup) (p : κ × β → Bool) : ((m.filter p).map Prod.fst).Nodup :=
 h.sublist (filter_sublist.map Prod.fst)

end OrderedMap
