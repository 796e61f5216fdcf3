import Enlace.Relay.Slots

set_option autoImplicit false

/-! What `slot_write` leaves behind when it answers, with other requests and the long polls of
`slot_read` in between. -/
namespace Enlace.Relay
open ByteString Fallible Table Transition DurableLog Option Function Store

structure Poll where
  id : RelayId
  since : UInt64
  notified : Bool

structure Front (ι κ : Type) where
  sys : Sys ι
  polls : κ → Option Poll

inductive FrontAct (ι κ : Type) where
  | write (a : Act ι)
  | poisoned (i : ι)
  | poll (k : κ) (id : RelayId) (since : UInt64)
  | leave (k : κ)

def FrontAct.request? {ι κ : Type} : FrontAct ι κ → Option ι
  | .write (.request i _) | .write (.run i) | .write (.fail i) | .poisoned i => some i
  | _ => none

variable {ι κ : Type} [DecidableEq ι] [DecidableEq κ] (cfg : RelayConfig)

/-- `notify_waiters` is called after the store was flushed and before the answer. -/
def Front.step (s : Front ι κ) : FrontAct ι κ → Option (Front ι κ)
  | .write a => (Relay.step cfg s.sys a).map fun u => ⟨u, match a with
    | .run i => match s.sys.pcs i with
      | .respond _ => fun k => (s.polls k).map fun p => { p with notified := true }
      | _ => s.polls
    | .restart _ => fun _ => none
    | _ => s.polls⟩
  | .poisoned i => match s.sys.pcs i with
    | .put _ => some { s with sys := s.sys.setPc i (.done (some .serverError)) }
    | _ => none
  | .poll k id since =>
    -- the future is made before the table is read, so a later notification is not missed
    if (s.polls k).all Poll.notified then
      let r := s.sys.tables.getSlotNewer s.sys.now id since
      some ⟨{ s.sys with tables := r.1 },
        Function.update s.polls k (if r.2.isSome then none else some ⟨id, since, false⟩)⟩
    else none
  | .leave k => some { s with polls := Function.update s.polls k none }

def Pc.pending : Pc → Option Write
  | .insert w | .flush w | .respond w => some w
  | _ => none

def Pc.putting : Pc → Option Write
  | .put w => some w
  | _ => none

def Pc.inserting : Pc → Option Write
  | .insert w => some w
  | _ => none

def Pc.inserted : Pc → Option Write
  | .flush w | .respond w => some w
  | _ => none

/-- Persisting does not fail, no write is inserted over a newer one that is not yet answered, and neither a write that
enters the tables nor the slot in the place of one under way has expired. -/
def Calm (s : Front ι κ) : FrontAct ι κ → Prop
  | .write (.fail _) => False
  | .write (.run i) => (∀ w ∈ (s.sys.pcs i).putting, s.sys.now < w.slot.expiresAt) ∧
      ∀ w ∈ (s.sys.pcs i).inserting, ∀ j, ∀ old ∈ (s.sys.pcs j).inserted,
        old.id = w.id → old.slot.version ≤ w.slot.version
  | .write (.tick time) => ∀ i, ∀ w ∈ (s.sys.pcs i).pending, ∀ e ∈ s.sys.tables.slots.get w.id, time < e.expiresAt
  | _ => True

def TableHas (w : Write) (s : Sys ι) : Prop :=
  ∃ e, s.tables.slots.get w.id = some e ∧ w.slot.version ≤ e.version ∧ s.now < e.expiresAt

def StoreHas (w : Write) (db : Map RelayId Bytes) : Prop :=
  ∃ raw e, db.get w.id = some raw ∧ decodeSlot raw = .ok e ∧ w.slot.version ≤ e.version

section Served

variable {cfg} {s u : Sys ι} {w new : Write} {i : ι} {pc : Pc}

/-- What has become of the write of a request at this point. -/
def Sys.Serves (s : Sys ι) : Pc → Prop
  | .insert w => TableHas w s
  | .flush w => TableHas w s ∧ StoreHas w s.db.current
  | .respond w => TableHas w s ∧ s.db.Always (StoreHas w)
  | _ => True

omit [DecidableEq ι] in
lemma Sys.Serves.mono (h : s.Serves pc) (ht : ∀ w ∈ pc.pending, TableHas w s → TableHas w u)
    (hc : ∀ w ∈ pc.inserted, StoreHas w s.db.current → StoreHas w u.db.current)
    (ha : ∀ w ∈ pc.inserted, s.db.Always (StoreHas w) → u.db.Always (StoreHas w)) : u.Serves pc := by
 cases pc with
 | insert w => exact ht w rfl h
 | flush w => exact ⟨ht w rfl h.1,hc w rfl h.2⟩
 | respond w => exact ⟨ht w rfl h.1,ha w rfl h.2⟩
 | _ => trivial

omit [DecidableEq ι] in
lemma Sys.Serves.tables (h : s.Serves pc) (ht : ∀ w ∈ pc.pending, TableHas w s → TableHas w u)
    (hdb : u.db = s.db) : u.Serves pc :=
 h.mono ht (fun _ _=>hdb ▸ id) fun _ _=>hdb ▸ id

lemma storeHas_insert {db : Map RelayId Bytes} (h : StoreHas w db)
    (ho : w.id = new.id → w.slot.version ≤ new.slot.version) :
    StoreHas w (db.insert new.id (encodeSlot new.slot) trivial) := by
 obtain ⟨raw,e,hg,hd,hv⟩:=h
 by_cases hid : w.id = new.id
 · exact ⟨_,_,(Keyed.get_insert ..).trans (if_pos hid),decodeSlot_encodeSlot new.slot,ho hid⟩
 · exact ⟨raw,e,(Keyed.get_insert ..).trans ((if_neg hid).trans hg),hd,hv⟩

omit [DecidableEq ι] in
lemma tableHas_putSlot {tables : Tables} (hp : s.tables.putSlot s.now new.id new.slot = some tables)
    (hl : s.now < new.slot.expiresAt) :
    TableHas new { s with tables := tables } ∧ (TableHas w s → TableHas w { s with tables := tables }) := by
 unfold Tables.putSlot at hp
 split at hp
 · cases hp
 · rename_i hf
   cases hp
   have hg:=fun id=>Keyed.get_insert s.tables.slots new.id id new.slot trivial
   refine ⟨⟨new.slot,(hg _).trans (if_pos rfl),le_refl _,hl⟩,?_⟩
   rintro ⟨e,he,hv,hli⟩
   by_cases hid : w.id = new.id
   · refine ⟨new.slot,(hg _).trans (if_pos hid),?_,hl⟩
     rw [← hid,he,any_some,SlotEntry.expired,decide_eq_false (Nat.not_le.mpr hli)] at hf
     simp only [Bool.not_false,Bool.true_and,decide_eq_true_eq,not_le] at hf
     exact hv.trans (le_of_lt hf)
   · exact ⟨e,(hg _).trans ((if_neg hid).trans he),hv,hli⟩

omit [DecidableEq ι] in
lemma tableHas_getSlotNewer (h : TableHas w s) (id : RelayId) (since : UInt64) :
    TableHas w { s with tables := (s.tables.getSlotNewer s.now id since).1 } := by
 obtain ⟨e,he,hv,hl⟩:=h
 refine ⟨e,?_,hv,hl⟩
 unfold Tables.getSlotNewer
 split
 · exact he
 · rename_i slot hs
   split
   · rename_i hex
     refine (Keyed.get_erase _ _ _).trans ((if_neg ?_).trans he)
     rintro rfl
     obtain rfl:=some.inj (hs.symm.trans he)
     exact absurd (of_decide_eq_true hex) (Nat.not_le.mpr hl)
   · exact he

lemma serves_setPc {v : Sys ι} (hpc : v.Serves pc) (h : ∀ j, v.Serves (v.pcs j)) (j : ι) :
    (v.setPc i pc).Serves ((v.setPc i pc).pcs j) :=
 (forall_update_iff v.pcs fun _ pc=>v.Serves pc).mpr ⟨hpc,fun j _=>h j⟩ j

omit [DecidableEq κ] in
lemma serves_run {polls : κ → Option Poll} (hs : ∀ j, s.Serves (s.pcs j))
    (hc : Calm ⟨s, polls⟩ (.write (.run i))) (h : run s i = some u) : ∀ j, u.Serves (u.pcs j) := by
 have hse:=hs i
 obtain ⟨hl,ho⟩:=hc
 unfold run at h
 cases hpc : s.pcs i with
 | idle | done => rw [hpc] at h; cases h
 | put w =>
  simp only [hpc] at h hl
  split at h
  · exact some.inj h ▸ serves_setPc trivial hs
  · rename_i tables hp
    have hp:=fun old=>tableHas_putSlot (w := old) hp (hl w rfl)
    refine some.inj h ▸ serves_setPc (v := { s with tables := tables }) (hp w).1 fun j=>?_
    exact (hs j).tables (fun old _=>(hp old).2) rfl
 | insert w =>
  simp only [hpc] at h ho hse
  have hst : ∀ {j}, ∀ old ∈ (s.pcs j).inserted, StoreHas old s.db.current →
    StoreHas old (s.db.current.insert w.id (encodeSlot w.slot) trivial) :=
   fun old hold hh=>storeHas_insert hh (ho w rfl _ old hold)
  have hcu:=s.db.current_insert w.id (encodeSlot w.slot)
  refine some.inj h ▸ serves_setPc (v := { s with db := _ }) ⟨hse,?_⟩ fun j=>?_
  · change StoreHas w (s.db.insert w.id (encodeSlot w.slot)).current
    exact hcu ▸ ⟨_,_,(Keyed.get_insert ..).trans (if_pos rfl),decodeSlot_encodeSlot w.slot,le_refl _⟩
  · exact (hs j).mono (fun _ _=>id) (fun old hold hh=>hcu.symm ▸ hst old hold hh) fun old hold hh=>
      hh.insert (hst old hold hh.current)
 | flush w =>
  rw [hpc] at h hse
  refine some.inj h ▸ serves_setPc (v := { s with db := _ }) ⟨hse.1,always_flush hse.2⟩ fun j=>?_
  exact (hs j).mono (fun _ _=>id) (fun _ _ hh=>(s.db.current_persist _).symm ▸ hh) fun _ _ hh=>hh.persist _
 | respond w =>
  rw [hpc] at h
  exact some.inj h ▸ serves_setPc (v := { s with acked := s.acked ++ [w] }) trivial hs

lemma serves_step {s u : Front ι κ} {a : FrontAct ι κ} (hs : ∀ j, s.sys.Serves (s.sys.pcs j))
    (hc : Calm s a) (h : s.step cfg a = some u) (j : ι) : u.sys.Serves (u.sys.pcs j) := by
 cases a with
 | leave k => exact some.inj h ▸ hs j
 | poisoned i =>
  simp only [Front.step] at h
  split at h
  · exact some.inj h ▸ serves_setPc (show s.sys.Serves (.done _) from trivial) hs j
  · cases h
 | poll k id since =>
  obtain ⟨_,rfl⟩:=of_guard h
  exact (hs j).tables (fun _ _ hh=>tableHas_getSlotNewer hh id since) rfl
 | write a =>
  obtain ⟨v,hv,rfl⟩:=map_eq_some_iff.mp h
  cases a with
  | fail i => exact hc.elim
  | run i => exact serves_run hs hc hv j
  | request i r =>
   simp only [step,request] at hv
   split at hv
   · refine some.inj hv ▸ serves_setPc ?_ hs j
     split <;> trivial
   · cases hv
  | read id since => exact some.inj hv ▸ (hs j).tables (fun _ _ hh=>tableHas_getSlotNewer hh id since) rfl
  | background n =>
   exact some.inj hv ▸ (hs j).mono (fun _ _=>id) (fun _ _ hh=>(s.sys.db.current_persist n).symm ▸ hh)
    fun _ _ hh=>hh.persist n
  | tick time =>
   refine some.inj hv ▸ (hs j).tables (fun w hw=>?_) rfl
   rintro ⟨e,he,hve,_⟩
   exact ⟨e,he,hve,hc j w hw e he⟩
  | restart n =>
   obtain ⟨p,_,rfl⟩:=map_eq_some_iff.mp hv
   trivial

end Served

section Atomicity

variable {cfg} {s u : Front ι κ} {a : FrontAct ι κ} {i : ι}

/-- A request at such a point has changed the tables. -/
def Pc.Committed : Pc → Prop
  | .insert _ | .flush _ | .respond _ => True
  | .done reply => reply = some .noContent
  | _ => False

omit [DecidableEq κ] in
lemma run_commits {s u : Sys ι} {j : ι} (h : run s j = some u) : ∃ pc, u.pcs = Function.update s.pcs j pc ∧
    ((s.pcs j).Committed → pc.Committed) ∧ (pc.Committed ∨ (u.tables = s.tables ∧ u.db = s.db)) := by
 unfold run at h
 cases hpc : s.pcs j with
 | idle | done => rw [hpc] at h; cases h
 | put w =>
  rw [hpc] at h
  simp only at h
  split at h
  · exact some.inj h ▸ ⟨_,rfl,False.elim,.inr ⟨rfl,rfl⟩⟩
  · exact some.inj h ▸ ⟨_,rfl,False.elim,.inl trivial⟩
 | insert w | flush w =>
  rw [hpc] at h
  exact some.inj h ▸ ⟨_,rfl,fun _=>trivial,.inl trivial⟩
 | respond w =>
  rw [hpc] at h
  exact some.inj h ▸ ⟨_,rfl,fun _=>rfl,.inl rfl⟩

/-- A step of a request that changes the tables or the store commits it. -/
theorem committed_or_same (h : s.step cfg a = some u) (hi : a.request? = some i) (hc : Calm s a) :
    (u.sys.pcs i).Committed ∨ (u.sys.tables = s.sys.tables ∧ u.sys.db = s.sys.db) := by
 match a, hi with
 | .poisoned _, rfl =>
  simp only [Front.step] at h
  split at h
  · exact some.inj h ▸ .inr ⟨rfl,rfl⟩
  · cases h
 | .write (.fail _), _ => exact hc.elim
 | .write (.request _ r), rfl =>
  obtain ⟨v,hv,rfl⟩:=map_eq_some_iff.mp h
  simp only [step,request] at hv
  split at hv
  · exact some.inj hv ▸ .inr ⟨rfl,rfl⟩
  · cases hv
 | .write (.run _), rfl =>
  obtain ⟨v,hv,rfl⟩:=map_eq_some_iff.mp h
  obtain ⟨pc,hp,-,hco⟩:=run_commits hv
  rwa [hp,update_self]

lemma committed_step (h : s.step cfg a = some u) (hc : Calm s a) (hr : ∀ n, a ≠ .write (.restart n))
    (hi : (s.sys.pcs i).Committed) : (u.sys.pcs i).Committed := by
 have ho : ∀ {j pc}, ¬ (s.sys.pcs j).Committed → ((s.sys.setPc j pc).pcs i).Committed := by
  intro j pc hj
  have hne : i ≠ j := fun heq=>hj (heq ▸ hi)
  change (update s.sys.pcs j pc i).Committed
  rwa [update_of_ne hne]
 match a with
 | .leave k => exact some.inj h ▸ hi
 | .poll k id since => exact (of_guard h).2 ▸ hi
 | .poisoned j =>
  simp only [Front.step] at h
  split at h
  · rename_i hj
    exact some.inj h ▸ ho (hj ▸ id)
  · cases h
 | .write a =>
  obtain ⟨v,hv,rfl⟩:=map_eq_some_iff.mp h
  cases a with
  | fail j => exact hc.elim
  | restart n => exact absurd rfl (hr n)
  | read | background | tick => exact some.inj hv ▸ hi
  | request j r =>
   simp only [step,request] at hv
   split at hv
   · rename_i hj
     exact some.inj hv ▸ ho (hj ▸ id)
   · cases hv
  | run j =>
   obtain ⟨pc,hp,hk,-⟩:=run_commits hv
   rw [hp]
   by_cases hij : i = j
   · rw [hij,update_self]
     exact hk (hij ▸ hi)
   · rwa [update_of_ne hij]

lemma committed_runs {as : List (FrontAct ι κ)} (h : GuardedRuns (Front.step cfg) Calm s as u)
    (hr : ∀ n, .write (.restart n) ∉ as) (hi : (s.sys.pcs i).Committed) : (u.sys.pcs i).Committed := by
 induction h with
 | refl => exact hi
 | @next s _ _ a as hc hs _ ih =>
  refine ih (fun n hn=>hr n (List.mem_cons_of_mem _ hn)) (committed_step hs hc (fun n heq=>?_) hi)
  exact hr n (heq ▸ List.mem_cons_self)

end Atomicity

/-- In a calm run a request that is answered with an error has changed neither the tables nor the store; and when one is
answered with 204, the slot served and every state of the store after a crash have its version or a newer one, and every
long poll has been notified. -/
theorem slot_write_atomic (s₀ : Front ι κ) (hidle : ∀ i, s₀.sys.pcs i = .idle) (as : List (FrontAct ι κ))
    (s : Front ι κ) (h : GuardedRuns (Front.step cfg) Calm s₀ as s) :
    (∀ i reply, s.sys.pcs i = .done (some reply) → reply ≠ .noContent →
      ∀ before a after, as = before ++ a :: after → a.request? = some i → (∀ n, .write (.restart n) ∉ after) →
        ∀ s₁ s₂, Runs (Front.step cfg) s₀ before s₁ → s₁.step cfg a = some s₂ →
          s₂.sys.tables = s₁.sys.tables ∧ s₂.sys.db = s₁.sys.db) ∧
    ∀ i w u, s.sys.pcs i = .respond w → s.step cfg (.write (.run i)) = some u →
      u.sys.pcs i = .done (some .noContent) ∧ TableHas w u.sys ∧ u.sys.db.Always (StoreHas w) ∧
      ∀ k p, u.polls k = some p → p.notified = true := by
 constructor
 · rintro i reply hre he before a after rfl hi hr s₁ s₂ hbefore hst
   cases h.after hbefore with
   | next hc hn tail =>
    obtain rfl:=some.inj (hn.symm.trans hst)
    refine (committed_or_same hst hi hc).resolve_left fun hco=>he ?_
    have hd:=committed_runs tail hr hco
    rw [hre] at hd
    exact some.inj hd
 · intro i w u hpc hst
   have hse : s.sys.Serves (s.sys.pcs i) := by
    refine h.invariant (fun s=>∀ j, s.sys.Serves (s.sys.pcs j)) (fun j=>?_) (fun _ _ _ hs hc hu=>serves_step hs hc hu) i
    rw [hidle]
    trivial
   rw [hpc] at hse
   obtain ⟨v,hv,rfl⟩:=map_eq_some_iff.mp hst
   simp only [step,run,hpc] at hv
   cases hv
   refine ⟨update_self ..,hse.1,hse.2,fun k p hp=>?_⟩
   simp only [hpc] at hp
   obtain ⟨q,_,rfl⟩:=map_eq_some_iff.mp hp
   rfl

section Plain

instance decidableCalm [Fintype ι] (s : Front ι κ) : DecidablePred (Calm s)
  | .write (.fail _) => instDecidableFalse
  | .write (.run i) => inferInstanceAs (Decidable (_ ∧ ∀ w ∈ (s.sys.pcs i).inserting, ∀ j,
      ∀ old ∈ (s.sys.pcs j).inserted, old.id = w.id → old.slot.version ≤ w.slot.version))
  | .write (.tick time) => inferInstanceAs (Decidable (∀ i, ∀ w ∈ (s.sys.pcs i).pending,
      ∀ e ∈ s.sys.tables.slots.get w.id, time < e.expiresAt))
  | .write (.request ..) | .write (.read ..) | .write (.background _) | .write (.restart _) => instDecidableTrue
  | .poisoned _ | .poll .. | .leave _ => instDecidableTrue

def emptyFront : Front Bool Unit := ⟨⟨0, ⟨.empty, .empty⟩, ⟨.empty, []⟩, fun _ => .idle, [], []⟩, fun _ => none⟩

def Pc.reply? : Pc → Option Reply
  | .done reply => reply
  | _ => none

def Pc.responding : Pc → Option Write
  | .respond w => some w
  | _ => none

def Front.outcome (s : Front Bool Unit) : Option Reply × Option UInt64 × Option UInt64 :=
  let id := RelayId.parse (plainWrite "1").id
  ((s.sys.pcs false).reply?, (id.bind s.sys.tables.slots.get).map SlotEntry.version,
    ((id.bind s.sys.db.current.get).bind fun raw => toOption (decodeSlot raw)).map SlotEntry.version)

def refusedWrite : List (FrontAct Bool Unit) :=
  [.write (.request false (plainWrite "2")), .write (.run false), .write (.run false), .write (.run false),
    .write (.request true (plainWrite "1")), .write (.run true)]

theorem slot_write_atomic_refused : ∃ s w u, GuardedRuns (Front.step plainConfig) Calm emptyFront refusedWrite s ∧
    (s.sys.pcs true).reply? = some .staleVersion ∧ s.sys.pcs false = .respond w ∧
    s.step plainConfig (.write (.run false)) = some u ∧ TableHas w u.sys ∧ u.sys.db.Always (StoreHas w) := by
 obtain ⟨s,hr,hre,hv⟩ : ∃ s, GuardedRuns (Front.step plainConfig) Calm emptyFront refusedWrite s ∧
   (s.sys.pcs true).reply? = some .staleVersion ∧
    (s.sys.pcs false).responding.map (fun w=>w.slot.version) = some 2 := by
  decide +kernel
 obtain ⟨w,hw,_⟩:=map_eq_some_iff.mp hv
 have hpc : s.sys.pcs false = .respond w := by
  unfold Pc.responding at hw
  split at hw
  · rename_i hpc
    exact some.inj hw ▸ hpc
  · cases hw
 obtain ⟨u,hu⟩ : ∃ u, s.step plainConfig (.write (.run false)) = some u:=by simp [Front.step,step,run,hpc]
 obtain ⟨_,ht,hs,_⟩:=(slot_write_atomic plainConfig emptyFront (fun _=>rfl) refusedWrite s hr).2 false w u hpc hu
 exact ⟨s,w,u,hr,hre,hpc,hu,ht,hs⟩

theorem failed_persist_is_served : ∃ s, Runs (Front.step plainConfig) emptyFront
      [.write (.request false (plainWrite "1")), .write (.run false), .write (.fail false)] s ∧
    emptyFront.outcome = (none, none, none) ∧ s.outcome = (some .serverError, some 1, none) :=
 by decide +kernel

end Plain

end Enlace.Relay
