import Enlace.Watch

set_option autoImplicit false

/-! The slot operations of one endpoint, in either mode, over its in-memory state. Any number of
puts, gets and watches run at once; each statement that touches the state is a step of its own. -/
namespace Enlace.Endpoint
open ByteString Fallible Crypto State Transition SlotRead List Option Function InMemoryInner Watch

/-- What one mode does for a slot, named by `K`. A read returns a value and the version that it records as seen, if any.
-/
structure Mode (P : Primitives) (K Put Env Value Out ε : Type) where
  stateKey : K → Bytes
  putKey : Put → K
  put : InMemoryInner P → Env → Put → InMemoryInner P × Res ε Out
  putVersion : Out → UInt64
  get : K → List (Response Env) → Res ε (Option Value × Option UInt64)
  version : Value → UInt64
  since : InMemoryInner P → K → UInt64
  tasks : K → ℕ
  watch : ∀ k, Watch.Watcher (Fin (tasks k)) Env Value
  put_store : ∀ s env p, (put s env p).1 = (s.nextLocalSlotVersion (stateKey (putKey p))).1
  put_version : ∀ s env p out, (put s env p).2 = .ok out →
    (s.nextLocalSlotVersion (stateKey (putKey p))).2 = some (putVersion out)
  watch_stateKey : ∀ k, (watch k).stateKey = stateKey k
  watch_version : ∀ k env i bytes v x, (watch k).openItem env i bytes = .ok (v, x) → version x = v

variable {P : Primitives} {K Put Env Value Out ε : Type}

inductive Reading (Value : Type) where
  | found (value : Option Value) (seen : Option UInt64)
  | recorded (value : Option Value)

structure Watching (mode : Mode P K Put Env Value Out ε) (k : K) where
  since : UInt64
  sys : Watch.Sys P (Fin (mode.tasks k)) Env Value

/-- A put is in the log from its call on, a read from its return, a delivery from its receipt. -/
inductive Event (K : Type) where
  | put (k : K) (version : UInt64)
  | got (k : K) (version : UInt64)
  | delivered (k : K) (version : UInt64)

def Event.key : Event K → K
  | .put k _ => k
  | .got k _ => k
  | .delivered k _ => k

def Event.version : Event K → UInt64
  | .put _ v => v
  | .got _ v => v
  | .delivered _ v => v

def Event.isPut : Event K → Bool
  | .put _ _ => true
  | _ => false

def Event.isGot : Event K → Bool
  | .got _ _ => true
  | _ => false

structure Sys (mode : Mode P K Put Env Value Out ε) where
  store : InMemoryInner P
  env : Env
  reads : List (K × Reading Value)
  watches : ∀ k, List (Watching mode k)
  log : List (Event K)

inductive Act (mode : Mode P K Put Env Value Out ε) where
  | put (p : Put)
  | get (k : K) (responses : List (Response Env))
  | record (i : ℕ)
  | ret (i : ℕ)
  | watch (k : K)
  | task (k : K) (i : ℕ) (a : Watch.Act (Fin (mode.tasks k)) Env)
  | change (env : Env)

variable {mode : Mode P K Put Env Value Out ε}

def start (mode : Mode P K Put Env Value Out ε) (store : InMemoryInner P) (env : Env) : Sys mode :=
  ⟨store, env, [], fun _ => [], []⟩

namespace Sys

variable (s : Sys mode)

/-- The tasks of a watch share the state and the environment with everything else. -/
def load {k : K} (w : Watching mode k) : Watch.Sys P (Fin (mode.tasks k)) Env Value :=
  { w.sys with store := s.store, env := s.env }

def callPut (p : Put) : Sys mode :=
  let r := mode.put s.store s.env p
  { s with
    store := r.1
    log := s.log ++ ((toOption r.2).map fun out => Event.put (mode.putKey p) (mode.putVersion out)).toList }

def callGet (k : K) (responses : List (Response Env)) : Sys mode :=
  match mode.get k responses with
  | .ok (value, seen) => { s with reads := s.reads ++ [(k, .found value seen)] }
  | .error _ => s

def recordRead (i : ℕ) : Option (Sys mode) :=
  match s.reads[i]? with
  | some (k, .found value seen) => some { s with
      store := seen.elim s.store fun v => (s.store.recordSeenSlotVersion (mode.stateKey k) v).1
      reads := s.reads.set i (k, .recorded value) }
  | _ => none

def returnRead (i : ℕ) : Option (Sys mode) :=
  match s.reads[i]? with
  | some (k, .recorded value) => some { s with
      reads := s.reads.eraseIdx i
      log := s.log ++ (value.map fun v => Event.got k (mode.version v)).toList }
  | _ => none

variable [DecidableEq K]

def startWatch (k : K) : Sys mode :=
  let w := ⟨mode.since s.store k, Watch.init (mode.watch k) s.store s.env⟩
  { s with watches := Function.update s.watches k (s.watches k ++ [w]) }

def stepWatch (k : K) (i : ℕ) (a : Watch.Act (Fin (mode.tasks k)) Env) : Option (Sys mode) := do
  let w ← (s.watches k)[i]?
  let u ← Watch.step (mode.watch k) (s.load w) a
  return { s with
    store := u.store
    watches := Function.update s.watches k ((s.watches k).set i { w with sys := u })
    log := s.log ++ ((Watch.received w.sys a).map fun x => Event.delivered k (mode.version x.value)).toList }

end Sys

def step [DecidableEq K] (s : Sys mode) : Act mode → Option (Sys mode)
  | .put p => some (s.callPut p)
  | .get k responses => some (s.callGet k responses)
  | .record i => s.recordRead i
  | .ret i => s.returnRead i
  | .watch k => some (s.startWatch k)
  | .task k i a => s.stepWatch k i a
  | .change env => some { s with env := env }


variable {k : K} {a : Watch.Act (Fin (mode.tasks k)) Env} {as : List (Act mode)}

variable {env : Env} {i : ℕ} {x : Watch.Sys P (Fin (mode.tasks k)) Env Value}

section Floor

def Act.key (s : Sys mode) : Act mode → Option K
  | .put p => some (mode.putKey p)
  | .get k _ => some k
  | .record i => s.reads[i]?.map Prod.fst
  | .ret i => s.reads[i]?.map Prod.fst
  | .watch k => some k
  | .task k _ _ => some k
  | .change _ => none

variable {s u : Sys mode}

lemma recordRead_eq_some (h : s.recordRead i = some u) :
    ∃ k value seen, s.reads[i]? = some (k, .found value seen) ∧ u = { s with
        store := seen.elim s.store fun v => (s.store.recordSeenSlotVersion (mode.stateKey k) v).1
        reads := s.reads.set i (k, .recorded value) } := by
 unfold Sys.recordRead at h
 split at h
 · rename_i hr
   exact ⟨_,_,_,hr,(some.inj h).symm⟩
 · cases h

lemma returnRead_eq_some (h : s.returnRead i = some u) :
    ∃ k value, s.reads[i]? = some (k, .recorded value) ∧ u = { s with
        reads := s.reads.eraseIdx i
        log := s.log ++ (value.map fun v => Event.got k (mode.version v)).toList } := by
 unfold Sys.returnRead at h
 split at h
 · rename_i hr
   exact ⟨_,_,hr,(some.inj h).symm⟩
 · cases h

lemma callGet_cases (s : Sys mode) (k : K) (rs : List (Response Env)) :
    s.callGet k rs = s ∨ ∃ value seen, mode.get k rs = .ok (value, seen) ∧
      s.callGet k rs = { s with reads := s.reads ++ [(k, .found value seen)] } := by
 unfold Sys.callGet
 cases hg : mode.get k rs with
 | error e => exact Or.inl rfl
 | ok r => exact Or.inr ⟨r.1,r.2,rfl,rfl⟩

variable [DecidableEq K]

lemma stepWatch_eq_some (h : s.stepWatch k i a = some u) : ∃ w x, (s.watches k)[i]? = some w ∧
      Watch.step (mode.watch k) (s.load w) a = some x ∧
      u = { s with
        store := x.store
        watches := Function.update s.watches k ((s.watches k).set i { w with sys := x })
        log := s.log ++
          ((Watch.received w.sys a).map fun x => Event.delivered k (mode.version x.value)).toList } := by
 obtain ⟨w,hw,h⟩:=bind_eq_some_iff.mp h
 obtain ⟨x,hx,h⟩:=bind_eq_some_iff.mp h
 exact ⟨w,x,hw,hx,(some.inj h).symm⟩

lemma floor_step {a : Act mode} (h : step s a = some u) (slot : Bytes) : s.store.floor slot ≤ u.store.floor slot ∧
      ((∀ k, a.key s = some k → slot ≠ mode.stateKey k) → u.store.floor slot = s.store.floor slot) := by
 cases a with
 | put p =>
  rw [← some.inj h]
  simp only [Sys.callPut,mode.put_store,floor_nextLocalSlotVersion]
  refine ⟨?_,fun hk=>if_neg (hk _ rfl)⟩
  split
  · rename_i he
    rw [he]
    cases hn : (s.store.nextLocalSlotVersion (mode.stateKey (mode.putKey p))).2 with
    | none => exact le_rfl
    | some v => exact (s.store.floor_lt_next hn).le
  · exact le_rfl
 | get k rs =>
  rw [← some.inj h]
  rcases callGet_cases s k rs with he|⟨_,_,_,he⟩
  · rw [he]
    exact ⟨le_rfl,fun _=>rfl⟩
  · rw [he]
    exact ⟨le_rfl,fun _=>rfl⟩
 | record i =>
  obtain ⟨k,value,seen,hr,rfl⟩:=recordRead_eq_some h
  cases seen with
  | none => exact ⟨le_rfl,fun _=>rfl⟩
  | some v =>
   simp only [elim_some,floor_recordSeenSlotVersion]
   refine ⟨?_,fun hk=>if_neg (hk k (by rw [Act.key,hr]; rfl))⟩
   split
   · rename_i he
     rw [he]
     exact le_max_left _ _
   · exact le_rfl
 | ret i =>
  obtain ⟨_,_,_,rfl⟩:=returnRead_eq_some h
  exact ⟨le_rfl,fun _=>rfl⟩
 | watch k | change env =>
  rw [← some.inj h]
  exact ⟨le_rfl,fun _=>rfl⟩
 | task k i a =>
  obtain ⟨w,x,_,hx,rfl⟩:=stepWatch_eq_some h
  have hf:=floor_storeAfter (mode.watch k) (s.load w) a slot
  rw [← store_of_step _ hx,mode.watch_stateKey] at hf
  exact ⟨hf.1,fun hk=>hf.2 (hk k rfl)⟩

def Elsewhere (slot : Bytes) (s : Sys mode) (a : Act mode) : Prop :=
  ∀ k, a.key s = some k → slot ≠ mode.stateKey k

lemma next_elsewhere {slot : Bytes} (h : GuardedRuns step (Elsewhere slot) s as u) :
    (u.store.nextLocalSlotVersion slot).2 = (s.store.nextLocalSlotVersion slot).2 := by
 have hf : u.store.floor slot = s.store.floor slot := by
  refine h.invariant (fun v=>v.store.floor slot = s.store.floor slot) rfl ?_
  intro v a v' hv hok hs
  exact ((floor_step hs slot).2 hok).trans hv
 rw [nextLocalSlotVersion_snd,nextLocalSlotVersion_snd,hf]

end Floor

/-- Every put goes above whatever was put, returned or delivered on its slot before. -/
def Ascending (log : List (Event K)) : Prop :=
  log.Pairwise fun e e' => e'.isPut = true → e.key = e'.key → e.version < e'.version

/-- When a put is called, the state has reached every version that a read of its slot has returned. -/
def Known (s : Sys mode) : Act mode → Prop
  | .put p => ∀ e ∈ s.log, e.isGot = true → e.key = mode.putKey p →
      e.version ≤ s.store.floor (mode.stateKey (mode.putKey p))
  | _ => True

instance decidableKnown [DecidableEq K] (s : Sys mode) : DecidablePred (Known s)
  | .put p => inferInstanceAs (Decidable (∀ e ∈ s.log, _ → e.key = mode.putKey p → _ ≤ _))
  | .get .. | .record _ | .ret _ | .watch _ | .task .. | .change _ => instDecidableTrue

structure Sound (mode : Mode P K Put Env Value Out ε) {k : K}
    (x : Watch.Sys P (Fin (mode.tasks k)) Env Value) : Prop where
  inv : Watch.Inv x
  genuine : Watch.AllGenuine (mode.watch k) x
  recorded : Watch.Recorded (mode.watch k) x

variable {store : InMemoryInner P}

lemma Sound.raise (hx : Sound mode x) (env : Env)
    (h : x.store.floor (mode.watch k).stateKey ≤ store.floor (mode.watch k).stateKey) :
    Sound mode { x with store := store, env := env } :=
 ⟨⟨hx.inv.locked,hx.inv.newer,hx.inv.channel⟩,⟨hx.genuine.tasks,hx.genuine.sent⟩,hx.recorded.raise _ env h⟩

lemma sound_init (k : K) (store : InMemoryInner P) (env : Env) : Sound mode (init (mode.watch k) store env) :=
 ⟨inv_init _ store env,⟨nofun,nofun⟩,recorded_init _ store env⟩

lemma Sound.step {y : Watch.Sys P (Fin (mode.tasks k)) Env Value} (hx : Sound mode x)
    (h : Watch.step (mode.watch k) x a = some y) : Sound mode y :=
 ⟨inv_step _ hx.inv h,allGenuine_step _ hx.genuine h,recorded_step _ hx.recorded h⟩

lemma Sound.received_le {item : Item Env Value} (hx : Sound mode x) (h : received x a = some item) :
    mode.version item.value ≤ x.store.floor (mode.stateKey k) := by
 have hm : item ∈ x.channel := by
  cases a with
  | recv => exact mem_of_mem_head? h
  | _ => cases h
 have hs : item ∈ x.sent := hx.inv.channel ▸ mem_append_right _ hm
 obtain ⟨i,hopen⟩:=hx.genuine.sent item hs
 rw [mode.watch_version k _ _ _ _ _ hopen,← mode.watch_stateKey k]
 exact hx.recorded.channel item hm

structure Inv (s : Sys mode) : Prop where
  logged : ∀ e ∈ s.log, e.isGot = false → e.version ≤ s.store.floor (mode.stateKey e.key)
  ascending : Ascending s.log
  watches : ∀ k, ∀ w ∈ s.watches k, Sound mode (s.load w)

lemma inv_start (store : InMemoryInner P) (env : Env) : Inv (start mode store env) :=
 ⟨nofun,List.Pairwise.nil,nofun⟩

lemma Inv.move {s u : Sys mode} (hs : Inv s) (o : Option (Event K)) (hl : u.log = s.log ++ o.toList)
    (hf : ∀ slot, s.store.floor slot ≤ u.store.floor slot)
    (hl' : ∀ e ∈ o, e.isGot = false → e.version ≤ u.store.floor (mode.stateKey e.key))
    (hp : ∀ e ∈ o, e.isPut = true → ∀ e' ∈ s.log, e'.key = e.key → e'.version < e.version)
    (hw : ∀ k, ∀ w ∈ u.watches k, Sound mode (u.load w)) : Inv u := by
 refine ⟨?_,?_,hw⟩
 · intro e he hg
   rw [hl] at he
   rcases mem_append.mp he with he|he
   · exact (hs.logged e he hg).trans (hf _)
   · exact hl' e (mem_toList.mp he) hg
 · rw [hl]
   refine pairwise_append.mpr ⟨hs.ascending,?_,?_⟩
   · cases o with
     | none => exact List.Pairwise.nil
     | some e => exact pairwise_singleton _ _
   · exact fun e he e' he' hput=>hp e' (mem_toList.mp he') hput e he

lemma Inv.sound_of_mem {s u : Sys mode} (hs : Inv s)
    (hf : ∀ slot, s.store.floor slot ≤ u.store.floor slot) {w : Watching mode k}
    (hw : w ∈ s.watches k) : Sound mode (u.load w) :=
 (hs.watches k w hw).raise u.env (hf _)

section Step

variable [DecidableEq K] {s u : Sys mode}

lemma inv_put {p : Put} (hs : Inv s) (hok : Known s (.put p)) : Inv (s.callPut p) := by
 have hf:=fun slot=>(floor_step (s := s) (a := .put p) rfl slot).1
 refine hs.move _ rfl hf ?_ ?_ fun k w hw=>hs.sound_of_mem hf hw
 · intro e he _
   obtain ⟨out,ho,rfl⟩:=map_eq_some_iff.mp he
   have hn:=mode.put_version _ _ _ _ (toOption_eq_some.mp ho)
   simp only [Sys.callPut,mode.put_store,Event.key,Event.version,
    floor_nextLocalSlotVersion,if_true,hn,getD_some,le_refl]
 · intro e he _ e' he' hk
   obtain ⟨out,ho,rfl⟩:=map_eq_some_iff.mp he
   have hlt:=s.store.floor_lt_next (mode.put_version _ _ _ _ (toOption_eq_some.mp ho))
   cases hg : e'.isGot with
   | false => exact (hk ▸ hs.logged e' he' hg).trans_lt hlt
   | true => exact (hok e' he' hg hk).trans_lt hlt

lemma inv_watch (hs : Inv s) (k : K) : Inv (s.startWatch k) := by
 refine hs.move none (append_nil _).symm (fun _=>le_rfl) nofun nofun ?_
 refine (forall_update_iff s.watches fun _ ws=>∀ w ∈ ws, Sound mode (s.load w)).mpr
  ⟨fun w hw=>?_,fun k _=>hs.watches k⟩
 rcases mem_append.mp hw with hw|hw
 · exact hs.watches _ w hw
 · rw [mem_singleton.mp hw]
   exact sound_init _ _ _

lemma inv_task (hs : Inv s) (h : s.stepWatch k i a = some u) : Inv u := by
 have hf:=fun slot=>(floor_step (a := .task k i a) h slot).1
 obtain ⟨w,x,hw,hx,rfl⟩:=stepWatch_eq_some h
 have hl:=hs.watches k w (mem_of_getElem? hw)
 refine hs.move _ rfl hf ?_ ?_ ?_
 · intro e he _
   obtain ⟨item,hi,rfl⟩:=map_eq_some_iff.mp he
   exact (hl.received_le (a := a) (by cases a <;> exact hi)).trans (hf _)
 · intro e he hp
   obtain ⟨item,_,rfl⟩:=map_eq_some_iff.mp he
   cases hp
 · refine (forall_update_iff s.watches fun _ ws=>∀ w ∈ ws, Sound mode { w.sys with store := x.store,env := s.env }).mpr
    ⟨fun w' hw'=>?_,fun k _ w' hw'=>hs.sound_of_mem hf hw'⟩
   rcases mem_or_eq_of_mem_set hw' with hw'|rfl
   · exact hs.sound_of_mem hf hw'
   · exact (hl.step hx).raise s.env le_rfl

lemma inv_step {a : Act mode} (hs : Inv s) (hok : Known s a) (h : step s a = some u) : Inv u := by
 have hf:=fun slot=>(floor_step h slot).1
 cases a with
 | put p =>
  rw [← some.inj h]
  exact inv_put hs hok
 | get k rs =>
  rw [← some.inj h]
  rcases callGet_cases s k rs with he|⟨_,_,_,he⟩
  · rw [he]
    exact hs
  · rw [he]
    exact ⟨hs.logged,hs.ascending,hs.watches⟩
 | record i =>
  obtain ⟨k,value,seen,_,rfl⟩:=recordRead_eq_some h
  exact hs.move none (append_nil _).symm hf nofun nofun fun _ _ hw=>hs.sound_of_mem hf hw
 | ret i =>
  obtain ⟨k,value,hr,rfl⟩:=returnRead_eq_some h
  refine hs.move _ rfl hf ?_ ?_ fun _ _ hw=>hs.watches _ _ hw
  all_goals
   intro e he h
   obtain ⟨v,rfl,rfl⟩:=map_eq_some_iff.mp he
   cases h
 | watch k =>
  rw [← some.inj h]
  exact inv_watch hs k
 | task k i a => exact inv_task hs h
 | change env =>
  rw [← some.inj h]
  exact ⟨hs.logged,hs.ascending,fun k w hw=>(hs.watches k w hw).raise env le_rfl⟩

/-- Where the state has reached what reads returned by the time of a put, puts go up, whatever else interleaves. -/
theorem ascending_of_known (h : GuardedRuns step Known (start mode store env) as s) : Ascending s.log :=
 (h.invariant Inv (inv_start store env) fun _ _ _ hs hok hu=>inv_step hs hok hu).ascending

end Step

section Reads

def Mode.RecordsReads (mode : Mode P K Put Env Value Out ε) : Prop :=
  ∀ k responses v seen, mode.get k responses = .ok (some v, seen) → seen = some (mode.version v)

def Reading.Covered (mode : Mode P K Put Env Value Out ε) (floor : UInt64) : Reading Value → Prop
  | .found value seen => ∀ v ∈ value, seen = some (mode.version v)
  | .recorded value => ∀ v ∈ value, mode.version v ≤ floor

structure ReadsCovered (s : Sys mode) : Prop where
  reads : ∀ r ∈ s.reads, r.2.Covered mode (s.store.floor (mode.stateKey r.1))
  log : ∀ e ∈ s.log, e.isGot = true → e.version ≤ s.store.floor (mode.stateKey e.key)

lemma Reading.Covered.raise {floor floor' : UInt64} {r : Reading Value} (h : r.Covered mode floor)
    (hle : floor ≤ floor') : r.Covered mode floor' := by
 cases r with
 | found value seen => exact h
 | recorded value => exact fun v hv=>(h v hv).trans hle

lemma known_of_readsCovered {s : Sys mode} (hs : ReadsCovered s) : ∀ a, Known s a
  | .put _ => fun e he hg hk => hk ▸ hs.log e he hg
  | .get .. | .record _ | .ret _ | .watch _ | .task .. | .change _ => trivial

variable [DecidableEq K] {s u : Sys mode} {a : Act mode}

lemma covered_step (hm : mode.RecordsReads) (hs : ReadsCovered s) (h : step s a = some u) :
    ∀ r ∈ u.reads, r.2.Covered mode (u.store.floor (mode.stateKey r.1)) := by
 have old : ∀ r ∈ s.reads, r.2.Covered mode (u.store.floor (mode.stateKey r.1)) :=
  fun r hr=>(hs.reads r hr).raise (floor_step h _).1
 cases a with
 | get k rs =>
  rw [← some.inj h] at old ⊢
  rcases callGet_cases s k rs with he|⟨value,seen,hg,he⟩
  · rw [he]
    exact hs.reads
  · rw [he] at old ⊢
    intro r hr
    rcases mem_append.mp hr with hr|hr
    · exact old r hr
    · rw [mem_singleton.mp hr]
      intro v hv
      rw [mem_def.mp hv] at hg
      exact hm k rs v seen hg
 | record i =>
  obtain ⟨k,value,seen,hre,rfl⟩:=recordRead_eq_some h
  intro r hr
  rcases mem_or_eq_of_mem_set hr with hr|rfl
  · exact old r hr
  · intro v hv
    obtain rfl : seen = some (mode.version v) := hs.reads _ (mem_of_getElem? hre) v hv
    simp only [elim_some,floor_recordSeenSlotVersion,if_true]
    exact le_max_right _ _
 | ret i =>
  obtain ⟨k,value,_,rfl⟩:=returnRead_eq_some h
  exact fun r hr=>old r (mem_of_mem_eraseIdx hr)
 | task k i a =>
  obtain ⟨_,_,_,_,rfl⟩:=stepWatch_eq_some h
  exact old
 | put p | watch k | change env =>
  rw [← some.inj h] at old ⊢
  exact old

/-- A read that a step enters in the log was waiting to return. -/
lemma got_step (h : step s a = some u) {e : Event K} (he : e ∈ u.log) (hg : e.isGot = true) :
    e ∈ s.log ∨ ∃ v, (e.key, Reading.recorded (some v)) ∈ s.reads ∧ mode.version v = e.version := by
 cases a with
 | get k rs =>
  rw [← some.inj h] at he
  rcases callGet_cases s k rs with hc|⟨_,_,_,hc⟩ <;> (rw [hc] at he; exact .inl he)
 | record i =>
  obtain ⟨_,_,_,_,rfl⟩:=recordRead_eq_some h
  exact .inl he
 | ret i =>
  obtain ⟨k,value,hr,rfl⟩:=returnRead_eq_some h
  refine (mem_append.mp he).imp_right fun he=>?_
  obtain ⟨v,rfl,rfl⟩:=map_eq_some_iff.mp (mem_toList.mp he)
  exact ⟨v,mem_of_getElem? hr,rfl⟩
 | task k i a =>
  obtain ⟨_,_,_,_,rfl⟩:=stepWatch_eq_some h
  refine (mem_append.mp he).imp_right fun he=>?_
  obtain ⟨_,_,rfl⟩:=map_eq_some_iff.mp (mem_toList.mp he)
  cases hg
 | put p =>
  rw [← some.inj h] at he
  refine (mem_append.mp he).imp_right fun he=>?_
  obtain ⟨_,_,rfl⟩:=map_eq_some_iff.mp (mem_toList.mp he)
  cases hg
 | watch k | change env => rw [← some.inj h] at he; exact .inl he

lemma readsCovered_step (hm : mode.RecordsReads) (hs : ReadsCovered s) (h : step s a = some u) : ReadsCovered u := by
 refine ⟨covered_step hm hs h,fun e he hg=>le_trans ?_ (floor_step h _).1⟩
 rcases got_step h he hg with he|⟨v,hv,heq⟩
 · exact hs.log e he hg
 · exact heq ▸ hs.reads _ hv v rfl

lemma ascending_of_recordsReads (hm : mode.RecordsReads)
    (h : Runs step (start mode store env) as s) : Ascending s.log :=
 ascending_of_known (h.guarded_of_invariant ReadsCovered ⟨nofun,nofun⟩
  (fun _ _ _ hs hu=>readsCovered_step hm hs hu) fun _ a hs=>known_of_readsCovered hs a)

end Reads

end Enlace.Endpoint
