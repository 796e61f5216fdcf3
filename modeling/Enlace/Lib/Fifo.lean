import Mathlib.Data.List.TakeWhile
import Mathlib.Data.Finset.Card

set_option autoImplicit false

/-! A broadcast channel that keeps the last `capacity` values. A receiver is the number of values
sent before the one it waits for. -/
namespace Broadcast
open List

variable {α : Type}

inductive Received (α : Type) where
  | empty
  | lagged (next : ℕ)
  | value (x : α) (next : ℕ)

/-- A receiver whose value has been overwritten moves on to the oldest one that is kept. -/
def recv (capacity : ℕ) (sent : List α) (next : ℕ) : Received α :=
  if next + capacity < sent.length then .lagged (sent.length - capacity)
  else match sent[next]? with
  | none => .empty
  | some x => .value x (next + 1)

/-- The channel keeps a copy of `x` that the receiver has not come to yet. -/
def Awaits (capacity : ℕ) (sent : List α) (next : ℕ) (x : α) : Prop :=
  ∃ k, next ≤ k ∧ sent.length ≤ k + capacity ∧ sent[k]? = some x

/-- The next value sent overwrites `x`, which the receiver has not come to yet. -/
def Overwrites (capacity : ℕ) (sent : List α) (next : ℕ) (x : α) : Prop :=
  next + capacity ≤ sent.length ∧ sent[sent.length - capacity]? = some x

instance decidableOverwrites [DecidableEq α] (capacity : ℕ) (sent : List α) (next : ℕ) (x : α) :
    Decidable (Overwrites capacity sent next x) :=
  inferInstanceAs (Decidable (_ ∧ _))

variable {capacity next next' : ℕ} {sent : List α} {x y : α}

lemma recv_eq_lagged (h : recv capacity sent next = .lagged next') :
    next + capacity < sent.length ∧ next' = sent.length - capacity := by
 unfold recv at h
 split at h
 · rename_i hl
   exact ⟨hl,(Received.lagged.inj h).symm⟩
 · split at h <;> cases h

lemma recv_eq_value (h : recv capacity sent next = .value x next') : sent[next]? = some x ∧ next' = next + 1 := by
 unfold recv at h
 split at h
 · cases h
 · split at h
   · cases h
   · rename_i heq
     obtain ⟨rfl,rfl⟩:=Received.value.inj h
     exact ⟨heq,rfl⟩

lemma recv_le (h : recv capacity sent next = .lagged next' ∨ ∃ x, recv capacity sent next = .value x next') :
    next' ≤ sent.length := by
 rcases h with h|⟨x,h⟩
 · have hn:=(recv_eq_lagged h).2
   omega
 · obtain ⟨hx,hn⟩:=recv_eq_value h
   have hlt:=(List.getElem?_eq_some_iff.mp hx).1
   omega

lemma awaits_concat (hc : 0 < capacity) (hn : next ≤ sent.length) : Awaits capacity (sent ++ [x]) next x := by
 refine ⟨sent.length,hn,?_,getElem?_concat_length⟩
 rw [length_append,length_singleton]
 omega

section
variable (h : Awaits capacity sent next x)
include h

lemma Awaits.concat (hke : ¬ Overwrites capacity sent next x) (y : α) : Awaits capacity (sent ++ [y]) next x := by
 obtain ⟨k,hn,hr,hk⟩:=h
 have hlt:=(List.getElem?_eq_some_iff.mp hk).1
 refine ⟨k,hn,?_,?_⟩
 · rw [length_append,length_singleton]
   by_contra hout
   have ho : k = sent.length - capacity := by omega
   exact hke ⟨by omega,ho ▸ hk⟩
 · rw [getElem?_append_left hlt]
   exact hk

lemma Awaits.lagged (hr : recv capacity sent next = .lagged next') : Awaits capacity sent next' x := by
 obtain ⟨k,_,hri,hk⟩:=h
 have hn:=(recv_eq_lagged hr).2
 exact ⟨k,by omega,hri,hk⟩

lemma Awaits.value (hr : recv capacity sent next = .value y next') : x = y ∨ Awaits capacity sent next' x := by
 obtain ⟨k,hle,hri,hk⟩:=h
 obtain ⟨hy,hn⟩:=recv_eq_value hr
 by_cases hf : k = next
 · rw [hf,hy] at hk
   exact Or.inl (Option.some.inj hk).symm
 · exact Or.inr ⟨k,by omega,hri,hk⟩

end

lemma not_awaits_length : ¬ Awaits capacity sent sent.length x := by
 intro h
 obtain ⟨k,hle,_,hk⟩:=h
 have hlt:=(List.getElem?_eq_some_iff.mp hk).1
 omega

end Broadcast

/-! A bounded first-in first-out queue whose items go stale, with an account of all that was ever
pushed. -/
namespace Fifo
open List

variable {τ α : Type}

/-- Why an item has left: a pop took it or found it stale, or a push, by its number, needed its room. -/
inductive Cause (τ : Type) where
  | taken (now : τ)
  | stale (now : τ)
  | overflow (pushes : ℕ)

structure Ledger (τ α : Type) where
  pushed : List α
  departures : List (α × Cause τ)
  queue : List α

namespace Ledger

def empty : Ledger τ α := ⟨[], [], []⟩

def push (cap : ℕ) (a : α) (l : Ledger τ α) : Ledger τ α :=
  let excess := l.queue.length + 1 - cap
  ⟨l.pushed ++ [a], l.departures ++ (l.queue.take excess).map (·, .overflow (l.pushed.length + 1)),
    l.queue.drop excess ++ [a]⟩

def pop (stale : τ → α → Bool) (now : τ) (l : Ledger τ α) : Ledger τ α :=
  let rest := l.queue.dropWhile (stale now)
  ⟨l.pushed, l.departures ++ ((l.queue.takeWhile (stale now)).map (·, .stale now) ++
    rest.head?.toList.map (·, .taken now)), rest.tail⟩

def ifTaken : α × Cause τ → Option α
  | (a, .taken _) => some a
  | _ => none

def taken (l : Ledger τ α) : List α := l.departures.filterMap ifTaken

/-- All that was pushed has left, in that order, or waits. Pops took fresh items and dropped stale ones; what a push put
out had as many pushes behind it as there is room. -/
structure Accounted (cap : ℕ) (stale : τ → α → Bool) (l : Ledger τ α) : Prop where
  order : l.pushed = l.departures.map Prod.fst ++ l.queue
  size : l.queue.length ≤ cap
  fresh : ∀ a now, (a, Cause.taken now) ∈ l.departures → stale now a = false
  stale : ∀ a now, (a, Cause.stale now) ∈ l.departures → stale now a = true
  overflow : ∀ k a n, l.departures[k]? = some (a, .overflow n) → k + cap < n ∧ n ≤ l.pushed.length

variable {cap : ℕ} {stale : τ → α → Bool} {l : Ledger τ α}

lemma accounted_empty : (empty : Ledger τ α).Accounted cap stale where
 order := rfl
 size := Nat.zero_le _
 fresh _ _ h := absurd h not_mem_nil
 stale _ _ h := absurd h not_mem_nil
 overflow k _ _ h := by simp [empty] at h

lemma filterMap_ifTaken {c : Cause τ} (hc : ∀ a : α, ifTaken (a, c) = none) (items : List α) :
    (items.map (·, c)).filterMap ifTaken = [] := by
 rw [filterMap_map,filterMap_eq_nil_iff]
 exact fun a _=>hc a

lemma taken_push (a : α) : (l.push cap a).taken = l.taken := by
 rw [taken,push,filterMap_append,filterMap_ifTaken fun _=>rfl,append_nil]
 rfl

lemma taken_pop (now : τ) : (l.pop stale now).taken = l.taken ++ (l.queue.dropWhile (stale now)).head?.toList := by
 have ht : ∀ items : List α, (items.map (·,Cause.taken now)).filterMap ifTaken = items := by
  intro items
  rw [filterMap_map]
  exact filterMap_some
 rw [taken,pop,filterMap_append,filterMap_append,filterMap_ifTaken fun _=>rfl,ht]
 rfl

section
variable (h : l.Accounted cap stale)
include h

/-- No item is taken twice, and none out of turn. -/
theorem Accounted.taken_sublist : l.taken.Sublist l.pushed := by
 have hm : ∀ ds : List (α × Cause τ), (ds.filterMap ifTaken).Sublist (ds.map Prod.fst) := by
  intro ds
  induction ds with
  | nil => exact List.Sublist.refl _
  | cons d ds ih =>
   obtain ⟨a,c⟩:=d
   cases c with
   | taken now => exact ih.cons_cons a
   | stale now | overflow n => exact ih.cons a
 rw [h.order]
 exact (hm l.departures).trans (sublist_append_left _ _)

lemma Accounted.length_pushed : l.pushed.length = l.departures.length + l.queue.length := by
 rw [h.order,length_append,length_map]

lemma Accounted.push (hca : 0 < cap) (a : α) : (l.push cap a).Accounted cap stale where
 order := by
  simp only [Ledger.push,map_append,map_map,Function.comp_def,map_id']
  rw [append_assoc,← append_assoc (take _ _),take_append_drop,← append_assoc,← h.order]
 size := by
  have hs:=h.size
  simp only [Ledger.push,length_append,length_drop,length_singleton]
  omega
 fresh b now hb := by
  rcases mem_append.mp hb with hb|hb
  · exact h.fresh b now hb
  · obtain ⟨_,_,heq⟩:=mem_map.mp hb
    cases (Prod.mk.inj heq).2
 stale b now hb := by
  rcases mem_append.mp hb with hb|hb
  · exact h.stale b now hb
  · obtain ⟨_,_,heq⟩:=mem_map.mp hb
    cases (Prod.mk.inj heq).2
 overflow k b n hk := by
  have hl:=h.length_pushed
  simp only [Ledger.push,length_append,length_singleton] at hk ⊢
  by_cases hold : k < l.departures.length
  · rw [getElem?_append_left hold] at hk
    have hb:=h.overflow k b n hk
    omega
  · rw [getElem?_append_right (by omega),getElem?_map,Option.map_eq_some_iff] at hk
    obtain ⟨c,hc,heq⟩:=hk
    obtain ⟨hlt,_⟩:=List.getElem?_eq_some_iff.mp hc
    have hn : l.pushed.length+1 = n := Cause.overflow.inj (Prod.mk.inj heq).2
    rw [length_take] at hlt
    omega

lemma Accounted.pop (now : τ) : (l.pop stale now).Accounted cap stale where
 order := by
  simp only [Ledger.pop,map_append,map_map,Function.comp_def,map_id']
  have hrest : (l.queue.dropWhile (stale now)).head?.toList ++ (l.queue.dropWhile (stale now)).tail =
    l.queue.dropWhile (stale now) := by
   cases l.queue.dropWhile (stale now) <;> rfl
  rw [append_assoc,append_assoc,hrest,takeWhile_append_dropWhile,← h.order]
 size := by
  have hs:=h.size
  have hd:=(dropWhile_suffix (stale now) (l := l.queue)).length_le
  simp only [Ledger.pop,length_tail]
  omega
 fresh b t hb := by
  rcases mem_append.mp hb with hb|hb
  · exact h.fresh b t hb
  · rcases mem_append.mp hb with hb|hb
    · simp at hb
    · obtain ⟨c,hc,heq⟩:=mem_map.mp hb
      obtain ⟨rfl,ht⟩:=Prod.mk.inj heq
      rw [← Cause.taken.inj ht]
      have hh:=head?_dropWhile_not (stale now) l.queue
      rw [Option.mem_toList.mp hc] at hh
      exact hh
 stale b t hb := by
  rcases mem_append.mp hb with hb|hb
  · exact h.stale b t hb
  · rcases mem_append.mp hb with hb|hb
    · obtain ⟨c,hc,heq⟩:=mem_map.mp hb
      obtain ⟨rfl,ht⟩:=Prod.mk.inj heq
      rw [← Cause.stale.inj ht]
      exact mem_takeWhile_imp hc
    · simp at hb
 overflow k b n hk := by
  by_cases hold : k < l.departures.length
  · rw [Ledger.pop,getElem?_append_left hold] at hk
    exact h.overflow k b n hk
  · simp only [Ledger.pop] at hk
    rw [getElem?_append_right (by omega)] at hk
    have hm:=mem_of_getElem? hk
    simp at hm

end

end Ledger
end Fifo

/-! A bounded list of the most recently used items, most recent first. Histories are read backwards
as well: their head is the latest use. -/
namespace Recency
open List

variable {α : Type} [DecidableEq α]

def touch (x : α) (recent : List α) : List α := x :: recent.erase x

def latest : List α → List α
  | [] => []
  | x :: history => touch x (latest history)

variable {history : List α}

lemma mem_latest {x : α} : x ∈ latest history ↔ x ∈ history := by
 induction history with
 | nil => exact Iff.rfl
 | cons y history ih =>
  rw [latest,touch,mem_cons,mem_cons,← ih]
  by_cases hxy : x = y
  · exact iff_of_true (.inl hxy) (.inl hxy)
  · rw [mem_erase_of_ne hxy]

lemma nodup_latest (history : List α) : (latest history).Nodup := by
 induction history with
 | nil => exact nodup_nil
 | cons x history ih => exact nodup_cons.mpr ⟨ih.not_mem_erase,ih.erase x⟩

lemma length_latest (history : List α) : (latest history).length = history.toFinset.card := by
 rw [← toFinset_card_of_nodup (nodup_latest history)]
 congr 1
 ext x
 rw [mem_toFinset,mem_toFinset,mem_latest]

lemma take_touch_take (c : ℕ) (x : α) (l : List α) : (touch x (l.take c)).take c = (touch x l).take c := by
 cases c with
 | zero => rfl
 | succ c =>
  rw [touch,touch,take_succ_cons]
  congr 1
  induction l generalizing c with
  | nil => rfl
  | cons y l ih =>
   rw [take_succ_cons]
   by_cases hyx : y = x
   · rw [hyx,erase_cons_head,erase_cons_head,take_take,min_self]
   · rw [erase_cons_tail (by simpa using hyx),erase_cons_tail (by simpa using hyx)]
     cases c with
     | zero => rfl
     | succ c => rw [take_succ_cons,take_succ_cons,ih c]

/-- The list kept under a bound, after a history. -/
def kept (c : ℕ) : List α → List α
  | [] => []
  | x :: history => (touch x (kept c history)).take c

lemma kept_eq (c : ℕ) (history : List α) : kept c history = (latest history).take c := by
 induction history with
 | nil => exact take_nil.symm
 | cons x history ih => rw [kept,ih,take_touch_take,latest]

lemma mem_of_mem_kept {c : ℕ} {x : α} (h : x ∈ kept c history) : x ∈ history := by
 rw [kept_eq] at h
 exact mem_latest.mp (mem_of_mem_take h)

lemma latest_append {since : List α} {x : α} (hx : x ∉ since) (older : List α) :
    ∃ rest, latest (since ++ x :: older) = latest since ++ x :: rest := by
 induction since with
 | nil => exact ⟨_,rfl⟩
 | cons y since ih =>
  rw [mem_cons,not_or] at hx
  obtain ⟨hxy,hx⟩:=hx
  obtain ⟨rest,hrest⟩:=ih hx
  rw [cons_append,latest,latest,touch,touch,hrest]
  by_cases hy : y ∈ latest since
  · exact ⟨rest,by rw [erase_append_left _ hy,cons_append]⟩
  · refine ⟨rest.erase y,?_⟩
    rw [erase_append_right _ hy,erase_of_not_mem hy,cons_append,erase_cons_tail (by simpa using hxy)]

/-- An item is kept exactly when it was used, and the other items used since are fewer than the
bound. -/
theorem mem_kept_iff {c : ℕ} {x : α} : x ∈ kept c history ↔
    ∃ since older, history = since ++ x :: older ∧ x ∉ since ∧ since.toFinset.card < c := by
 have hs : ∀ since older, x ∉ since → (x ∈ kept c (since ++ x :: older) ↔ since.toFinset.card < c) := by
  intro since older hx
  obtain ⟨rest,hrest⟩:=latest_append hx older
  have hn : x ∉ latest since := fun h=>hx (mem_latest.mp h)
  rw [kept_eq,hrest,← length_latest,take_append,mem_append]
  constructor
  · rintro (h|h)
    · exact absurd (mem_of_mem_take h) hn
    · by_contra hle
      rw [Nat.sub_eq_zero_of_le (not_lt.mp hle)] at h
      cases h
  · intro hlt
    obtain ⟨k,hk⟩ : ∃ k, c - (latest since).length = k+1:=⟨c - (latest since).length - 1,by omega⟩
    rw [hk]
    exact .inr mem_cons_self
 constructor
 · intro h
   obtain ⟨since,older,rfl,hx⟩:=eq_append_cons_of_mem (mem_of_mem_kept h)
   exact ⟨since,older,rfl,hx,(hs since older hx).mp h⟩
 · rintro ⟨since,older,rfl,hx,hlt⟩
   exact (hs since older hx).mpr hlt

section Map

variable {β : Type} [DecidableEq β] {f : α → β}

lemma map_erase_of_injOn {x : α} {l : List α} (h : ∀ y ∈ l, f y = f x → y = x) :
    (l.map f).erase (f x) = (l.erase x).map f := by
 induction l with
 | nil => rfl
 | cons y l ih =>
  rw [map_cons]
  by_cases hyx : y = x
  · rw [hyx,erase_cons_head,erase_cons_head]
  · have hne : f y ≠ f x := fun he=>hyx (h y mem_cons_self he)
    rw [erase_cons_tail (by simpa using hne),erase_cons_tail (by simpa using hyx),
     map_cons,ih fun z hz=>h z (mem_cons_of_mem _ hz)]

lemma kept_map (c : ℕ) (h : ∀ x ∈ history, ∀ y ∈ history, f x = f y → x = y) :
    kept c (history.map f) = (kept c history).map f := by
 induction history with
 | nil => rfl
 | cons x history ih =>
  have hk : ∀ y ∈ kept c history, f y = f x → y = x := by
   intro y hy he
   exact h y (mem_cons_of_mem _ (mem_of_mem_kept hy)) x mem_cons_self he
  rw [map_cons,kept,kept,touch,touch,map_take,map_cons,← map_erase_of_injOn hk,
   ih fun y hy z hz=>h y (mem_cons_of_mem _ hy) z (mem_cons_of_mem _ hz)]

end Map

end Recency
