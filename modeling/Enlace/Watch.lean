import Enlace.SlotRead
import Enlace.State.Memory
import Enlace.Lib.Transition

set_option autoImplicit false

/-! The tasks that a slot watch spawns, one for each transport. They share the best pair seen so
far, a dedup buffer and a bounded channel; every `await` and every statement that touches shared
state is a step of its own. -/
namespace Enlace.Watch
open ByteString Fallible Crypto State Transition SlotRead List Option Function AcceptEmit

def watchBuffer : ℕ := 64

/-- What distinguishes the watches. Opening a payload may depend on an environment that changes; it yields a version and
a value, drops the payload, or aborts. -/
structure Watcher (ι Env Value : Type) where
  openItem : Env → ι → Bytes → Res Unit (UInt64 × Value)
  dedupCapacity : ℕ
  stateKey : Bytes

inductive Pc (Env Value : Type) where
  | next
  | observe (bytes : Bytes)
  | opening (bytes : Bytes)
  | lockBest (x : Item Env Value)
  | compare (x : Item Env Value)
  | update (x : Item Env Value)
  | unlock (x : Item Env Value)
  | recordSeen (x : Item Env Value)
  | send (x : Item Env Value)
  | stopped

inductive StreamItem where
  | ended
  | failed
  | item (serverVersion : UInt64) (bytes : Bytes)

structure Sys (P : Primitives) (ι Env Value : Type) where
  tasks : ι → Pc Env Value
  best : Option (UInt64 × Bytes)
  bestLock : Option ι
  dedup : Dedup
  store : InMemoryInner P
  env : Env
  channel : List (Item Env Value)
  receiving : Bool
  sent : List (Item Env Value)
  delivered : List (Item Env Value)

inductive Act (ι Env : Type) where
  | next (i : ι) (item : StreamItem)
  | run (i : ι)
  | recv
  | close
  | change (env : Env)

variable {P : Primitives} {ι Env Value : Type} [DecidableEq ι]

def Sys.setPc (s : Sys P ι Env Value) (i : ι) (pc : Pc Env Value) : Sys P ι Env Value :=
  { s with tasks := Function.update s.tasks i pc }

def init (w : Watcher ι Env Value) (store : InMemoryInner P) (env : Env) : Sys P ι Env Value :=
  ⟨fun _ => .next, none, none, .new w.dedupCapacity, store, env, [], true, [], []⟩

variable (w : Watcher ι Env Value)

def runTask (s : Sys P ι Env Value) (i : ι) : Option (Sys P ι Env Value) :=
  match s.tasks i with
  | .next => none
  | .observe bytes =>
    let seen := s.dedup.observe P bytes
    some ({ s with dedup := seen.2 }.setPc i (if seen.1 then .next else .opening bytes))
  | .opening bytes =>
    match w.openItem s.env i bytes with
    | .ok (version, value) => some (s.setPc i (.lockBest ⟨bytes, version, value, s.env⟩))
    | .error (.error _) => some (s.setPc i .next)
    | .error .abort => some (s.setPc i .stopped)
  | .lockBest x =>
    if s.bestLock = none then some ({ s with bestLock := some i }.setPc i (.compare x)) else none
  | .compare x =>
    if s.best.any fun b => !slotPairIsNewer x.version x.bytes b.1 b.2 then
      some ({ s with bestLock := none }.setPc i .next)
    else some (s.setPc i (.update x))
  | .update x => some ({ s with best := some (x.version, x.bytes) }.setPc i (.unlock x))
  | .unlock x => some ({ s with bestLock := none }.setPc i (.recordSeen x))
  | .recordSeen x =>
    some ({ s with store := (s.store.recordSeenSlotVersion w.stateKey x.version).1 }.setPc i (.send x))
  | .send x =>
    if s.receiving = false then some (s.setPc i .stopped)
    else if s.channel.length < watchBuffer then
      some ({ s with channel := s.channel ++ [x], sent := s.sent ++ [x] }.setPc i .next)
    else none
  | .stopped => none

def takeNext (s : Sys P ι Env Value) (i : ι) (item : StreamItem) : Option (Sys P ι Env Value) :=
  match s.tasks i, item with
  | .next, .ended => some (s.setPc i .stopped)
  | .next, .failed => some s
  | .next, .item _ bytes => some (s.setPc i (.observe bytes))
  | _, _ => none

def recv (s : Sys P ι Env Value) : Option (Sys P ι Env Value) :=
  match s.receiving, s.channel with
  | true, x :: rest => some { s with channel := rest, delivered := s.delivered ++ [x] }
  | _, _ => none

def step (s : Sys P ι Env Value) : Act ι Env → Option (Sys P ι Env Value)
  | .next i item => takeNext s i item
  | .run i => runTask w s i
  | .recv => recv s
  | .close => some { s with receiving := false }
  | .change env => some { s with env := env }

def received (s : Sys P ι Env Value) : Act ι Env → Option (Item Env Value)
  | .recv => s.channel.head?
  | _ => none

/-- The pair a task has made the best one and not yet handed to the channel. -/
def Pc.held : Pc Env Value → Option (Item Env Value)
  | .unlock x => some x
  | .recordSeen x => some x
  | .send x => some x
  | _ => none

/-- A task sends only when no other task holds an accepted pair that is smaller than its own. -/
def SendsInOrder (s : Sys P ι Env Value) : Act ι Env → Prop
  | .run i => ∀ x, s.tasks i = .send x → ∀ j y, (s.tasks j).held = some y → x.key ≤ y.key
  | _ => True

def Pc.sending : Pc Env Value → Option (Item Env Value)
  | .send x => some x
  | _ => none

instance decidableSendsInOrder [Fintype ι] (s : Sys P ι Env Value) : DecidablePred (SendsInOrder s)
  | .run i =>
    decidable_of_iff (∀ x ∈ (s.tasks i).sending, ∀ j, ∀ y ∈ (s.tasks j).held, x.key ≤ y.key) (by
      cases h : s.tasks i <;> simp [SendsInOrder, Pc.sending, h])
  | .next _ _ | .recv | .close | .change _ => isTrue trivial

def Pc.locking : Pc Env Value → Bool
  | .compare _ => true
  | .update _ => true
  | .unlock _ => true
  | _ => false

/-- Everything a task can do in one step. -/
inductive Fires (s : Sys P ι Env Value) (i : ι) : Sys P ι Env Value → Prop where
  | seen {bytes : Bytes} {dedup : Dedup} (h : s.tasks i = .observe bytes) :
      Fires s i ({ s with dedup := dedup }.setPc i .next)
  | unseen {bytes : Bytes} {dedup : Dedup} (h : s.tasks i = .observe bytes) :
      Fires s i ({ s with dedup := dedup }.setPc i (.opening bytes))
  | opened {x : Item Env Value} (h : s.tasks i = .opening x.bytes)
      (hopen : w.openItem x.env i x.bytes = .ok (x.version, x.value)) :
      Fires s i (s.setPc i (.lockBest x))
  | dropped {bytes : Bytes} (h : s.tasks i = .opening bytes) : Fires s i (s.setPc i .next)
  | aborted {bytes : Bytes} (h : s.tasks i = .opening bytes) : Fires s i (s.setPc i .stopped)
  | lock {x : Item Env Value} (h : s.tasks i = .lockBest x) (free : s.bestLock = none) :
      Fires s i ({ s with bestLock := some i }.setPc i (.compare x))
  | stale {x : Item Env Value} (h : s.tasks i = .compare x) : Fires s i ({ s with bestLock := none }.setPc i .next)
  | newer {x : Item Env Value} (h : s.tasks i = .compare x)
      (hbest : ∀ b, s.best = some b → toLex b < x.key) :
      Fires s i (s.setPc i (.update x))
  | update {x : Item Env Value} (h : s.tasks i = .update x) :
      Fires s i ({ s with best := some (x.version, x.bytes) }.setPc i (.unlock x))
  | unlock {x : Item Env Value} (h : s.tasks i = .unlock x) :
      Fires s i ({ s with bestLock := none }.setPc i (.recordSeen x))
  | record {x : Item Env Value} {store : InMemoryInner P} (h : s.tasks i = .recordSeen x) :
      Fires s i ({ s with store := store }.setPc i (.send x))
  | closed {x : Item Env Value} (h : s.tasks i = .send x) (hclosed : s.receiving = false) :
      Fires s i (s.setPc i .stopped)
  | sent {x : Item Env Value} (h : s.tasks i = .send x) (hopen : s.receiving = true) :
      Fires s i ({ s with channel := s.channel ++ [x], sent := s.sent ++ [x] }.setPc i .next)

variable {s u : Sys P ι Env Value} {i : ι}

lemma fires_of_runTask (h : runTask w s i = some u) : Fires w s i u := by
 unfold runTask at h
 cases ht : s.tasks i with
 | next | stopped => rw [ht] at h; cases h
 | observe bytes =>
  rw [ht] at h
  rw [← some.inj h]
  cases (s.dedup.observe P bytes).1 with
  | true => exact .seen ht
  | false => exact .unseen ht
 | opening bytes =>
  rw [ht] at h
  cases ho : w.openItem s.env i bytes with
  | ok r =>
   simp only [ho] at h
   rw [← some.inj h]
   exact .opened ht ho
  | error e =>
   cases e with
   | error e =>
    simp only [ho] at h
    rw [← some.inj h]
    exact .dropped ht
   | abort =>
    simp only [ho] at h
    rw [← some.inj h]
    exact .aborted ht
 | lockBest x =>
  simp only [ht] at h
  split at h
  · rename_i hf
    rw [← some.inj h]
    exact .lock ht hf
  · cases h
 | compare x =>
  simp only [ht] at h
  split at h
  · rw [← some.inj h]
    exact .stale ht
  · rename_i hn
    rw [← some.inj h]
    refine .newer ht fun b hb=>?_
    simpa [hb,slotPairIsNewer,Item.key] using hn
 | update x =>
  simp only [ht] at h
  rw [← some.inj h]
  exact .update ht
 | unlock x =>
  simp only [ht] at h
  rw [← some.inj h]
  exact .unlock ht
 | recordSeen x =>
  simp only [ht] at h
  rw [← some.inj h]
  exact .record ht
 | send x =>
  simp only [ht] at h
  split at h
  · rename_i hc
    rw [← some.inj h]
    exact .closed ht hc
  · rename_i hopen
    split at h
    · rw [← some.inj h]
      exact .sent ht (Bool.not_eq_false _ ▸ hopen)
    · cases h

/-- Who holds the lock is in the locked region, and a task about to update has a newer pair than the best one. What was
sent was delivered or is in the channel. -/
structure Inv (s : Sys P ι Env Value) : Prop where
  locked : ∀ i, (s.tasks i).locking = true → s.bestLock = some i
  newer : ∀ i x, s.tasks i = .update x → ∀ b, s.best = some b → toLex b < x.key
  channel : s.sent = s.delivered ++ s.channel

omit [DecidableEq ι] in
lemma inv_init (store : InMemoryInner P) (env : Env) : Inv (init w store env) :=
 ⟨nofun,nofun,rfl⟩

variable {pc : Pc Env Value}

lemma Inv.move (hs : Inv s) (ht : u.tasks = update s.tasks i pc) (hlo : pc.locking = true → u.bestLock = some i)
    (ho : ∀ j, j ≠ i → (s.tasks j).locking = true → u.bestLock = some j ∧ u.best = s.best)
    (hn : ∀ x, pc = .update x → ∀ b, u.best = some b → toLex b < x.key)
    (hc : u.sent = u.delivered ++ u.channel) : Inv u := by
 refine ⟨?_,?_,hc⟩
 · intro j hj
   rw [ht] at hj
   exact (forall_update_iff s.tasks fun j pc=>pc.locking = true → u.bestLock = some j).mpr
    ⟨hlo,fun j he hj=>(ho j he hj).1⟩ j hj
 · rw [ht]
   refine (forall_update_iff s.tasks fun _ pc=>∀ x, pc = .update x → ∀ b, u.best = some b → toLex b < x.key).mpr
    ⟨hn,fun j he x hj=>?_⟩
   have hl : (s.tasks j).locking = true := by
    rw [hj]
    rfl
   rw [(ho j he hl).2]
   exact hs.newer j x hj

omit [DecidableEq ι] in
lemma Inv.alone (hs : Inv s) {j : ι} (hi : (s.tasks i).locking = true) (hj : (s.tasks j).locking = true) : j = i := by
 have h:=hs.locked i hi
 rw [hs.locked j hj] at h
 exact some.inj h

lemma inv_fires (hs : Inv s) (h : Fires w s i u) : Inv u := by
 have others : ∀ j, j ≠ i → (s.tasks j).locking = true → s.bestLock = some j ∧ s.best = s.best :=
  fun j _ hj=>⟨hs.locked j hj,rfl⟩
 have nobody : ∀ {Q : ι → Prop}, (s.tasks i).locking = true → ∀ j, j ≠ i → (s.tasks j).locking = true → Q j :=
  fun hi j hne hj=>absurd (hs.alone hi hj) hne
 cases h with
 | seen h | unseen h | opened h _ | dropped h | aborted h =>
  exact hs.move rfl nofun others nofun hs.channel
 | lock h free =>
  refine hs.move rfl (fun _=>rfl) ?_ nofun hs.channel
  intro j _ hj
  have hl:=hs.locked j hj
  rw [free] at hl
  cases hl
 | stale h | unlock h =>
  exact hs.move rfl nofun (nobody (by rw [h]; rfl)) nofun hs.channel
 | newer h hbest =>
  refine hs.move rfl (fun _=>hs.locked i (by rw [h]; rfl)) others ?_ hs.channel
  intro y hy
  rw [← Pc.update.inj hy]
  exact hbest
 | update h =>
  have hi : (s.tasks i).locking = true := by
   rw [h]
   rfl
  exact hs.move rfl (fun _=>hs.locked i hi) (nobody hi) nofun hs.channel
 | record h | closed h _ => exact hs.move rfl nofun others nofun hs.channel
 | sent h _ =>
  refine hs.move rfl nofun others nofun ?_
  change s.sent ++ [_] = s.delivered ++ (s.channel ++ [_])
  rw [hs.channel,append_assoc]

lemma takeNext_cases {item : StreamItem} (h : takeNext s i item = some u) : s.tasks i = .next ∧
      (u = s ∨ u = s.setPc i .stopped ∨ ∃ bytes, u = s.setPc i (.observe bytes)) := by
 unfold takeNext at h
 split at h
 · rename_i ht
   exact ⟨ht,.inr (.inl (some.inj h).symm)⟩
 · rename_i ht
   exact ⟨ht,.inl (some.inj h).symm⟩
 · rename_i ht
   exact ⟨ht,.inr (.inr ⟨_,(some.inj h).symm⟩)⟩
 · cases h

omit [DecidableEq ι] in
lemma recv_eq_some (h : recv s = some u) : ∃ x rest,
    s.channel = x :: rest ∧ u = { s with channel := rest, delivered := s.delivered ++ [x] } := by
 unfold recv at h
 split at h
 · rename_i hc
   exact ⟨_,_,hc,(some.inj h).symm⟩
 · cases h

variable {a : Act ι Env}

lemma inv_step (hs : Inv s) (h : step w s a = some u) : Inv u := by
 cases a with
 | next i item =>
  obtain ⟨ht,rfl|rfl|⟨bytes,rfl⟩⟩:=takeNext_cases h
  · exact hs
  · exact hs.move rfl nofun (fun j _ hj=>⟨hs.locked j hj,rfl⟩)
     nofun hs.channel
  · exact hs.move rfl nofun (fun j _ hj=>⟨hs.locked j hj,rfl⟩)
     nofun hs.channel
 | run i => exact inv_fires w hs (fires_of_runTask w h)
 | recv =>
  obtain ⟨x,rest,hc,rfl⟩:=recv_eq_some h
  refine ⟨hs.locked,hs.newer,?_⟩
  rw [hs.channel,hc,append_assoc]
  rfl
 | close | change env =>
  rw [← some.inj h]
  exact ⟨hs.locked,hs.newer,hs.channel⟩

def view (s : Sys P ι Env Value) : AcceptEmit.St ι (UInt64 ×ₗ Bytes) where
  best := s.best.map toLex
  held i := (s.tasks i).held.map Item.key
  emitted := s.sent.map Item.key

def viewAct (s : Sys P ι Env Value) : Act ι Env → Option (AcceptEmit.Act ι (UInt64 ×ₗ Bytes))
  | .run i => match s.tasks i with
    | .update x => some (.accept i x.key)
    | .send _ => some (if s.receiving then .emit i else .drop i)
    | _ => none
  | _ => none

lemma held_update (tasks : ι → Pc Env Value) (i : ι) (pc : Pc Env Value) :
    (fun j => (update tasks i pc j).held.map Item.key) =
      update (fun j => (tasks j).held.map Item.key) i (pc.held.map Item.key) := by
 exact comp_update (fun pc : Pc Env Value=>pc.held.map Item.key) tasks i pc

lemma view_eq (ht : u.tasks = update s.tasks i pc) (hh : pc.held = (s.tasks i).held)
    (hbest : u.best = s.best) (hs : u.sent = s.sent) : view u = view s := by
 have hf : (fun j=>(u.tasks j).held.map Item.key) = fun j=>(s.tasks j).held.map Item.key := by
  rw [ht,held_update,hh]
  exact update_eq_self i _
 simp only [view,hf,hbest,hs]

lemma refines_fires (hs : Inv s) (h : Fires w s i u) : (viewAct s (.run i : Act ι Env) = none ∧ view u = view s) ∨
      ∃ b, viewAct s (.run i : Act ι Env) = some b ∧ AcceptEmit.step (view s) b = some (view u) := by
 cases h with
 | seen h | unseen h | opened h _ | dropped h | aborted h | lock h _ | stale h | newer h _ | unlock h
 | record h => exact .inl ⟨by simp only [viewAct,h],view_eq rfl (by rw [h]; rfl) rfl rfl⟩
 | @update x h =>
  refine .inr ⟨.accept i x.key,by simp only [viewAct,h],?_⟩
  have hf : (view s).held i = none := by
   simp only [view,h]
   rfl
  have he : exceeds x.key (view s).best = true := by
   cases hb : s.best with
   | none => simp only [view,hb]; rfl
   | some b =>
    simp only [view,hb,exceeds,map_some,all_some]
    exact decide_eq_true (hs.newer i x h b hb)
  rw [AcceptEmit.step,if_pos ⟨hf,he⟩]
  simp only [view,Sys.setPc,held_update]
  rfl
 | @closed x h hc =>
  refine .inr ⟨.drop i,by simp only [viewAct,h,hc]; rfl,?_⟩
  have hh : (view s).held i = some x.key := by
   simp only [view,h]
   rfl
  rw [AcceptEmit.step,hh]
  simp only [view,Sys.setPc,held_update]
  rfl
 | @sent x h hopen =>
  refine .inr ⟨.emit i,by simp only [viewAct,h,hopen]; rfl,?_⟩
  have hh : (view s).held i = some x.key := by
   simp only [view,h]
   rfl
  rw [AcceptEmit.step,hh]
  simp only [view,Sys.setPc,held_update,map_append]
  rfl

lemma refines : Refines (step w (P := P)) AcceptEmit.step Inv view viewAct := by
 intro s a u hs h
 cases a with
 | next i item =>
  obtain ⟨ht,rfl|rfl|⟨bytes,rfl⟩⟩:=takeNext_cases h
  · exact .inl ⟨rfl,rfl⟩
  · exact .inl ⟨rfl,view_eq rfl (by rw [ht]; rfl) rfl rfl⟩
  · exact .inl ⟨rfl,view_eq rfl (by rw [ht]; rfl) rfl rfl⟩
 | run i => exact refines_fires w hs (fires_of_runTask w h)
 | recv =>
  obtain ⟨x,rest,_,rfl⟩:=recv_eq_some h
  exact .inl ⟨rfl,rfl⟩
 | close | change env =>
  rw [← some.inj h]
  exact .inl ⟨rfl,rfl⟩

omit [DecidableEq ι] in
lemma inOrder_of_sendsInOrder
    {b : AcceptEmit.Act ι (UInt64 ×ₗ Bytes)} (hok : SendsInOrder s a) (h : viewAct s a = some b) :
    AcceptEmit.InOrder (view s) b := by
 cases b with
 | accept i k | drop i => trivial
 | emit i =>
  cases a with
  | run i' =>
   simp only [viewAct] at h
   split at h
   · cases h
   · rename_i x ht
     split at h
     · obtain rfl:=AcceptEmit.Act.emit.inj (some.inj h)
       intro j k k' hk hk'
       obtain ⟨y,hy,rfl⟩:=map_eq_some_iff.mp hk'
       simp only [view,ht] at hk
       rw [← some.inj hk]
       exact hok x ht j y hy
     · cases h
   · cases h
  | _ => cases h

variable {as : List (Act ι Env)} {env : Env} {store : InMemoryInner P}

/-- When tasks send in order, the receiver sees strictly increasing pairs, whatever else
interleaves. -/
theorem delivered_increasing (h : GuardedRuns (step w) SendsInOrder (init w store env) as s) :
    s.delivered.Pairwise fun x y => x.key < y.key := by
 have hi : Inv s := h.runs.invariant Inv (inv_init w store env) fun _ _ _ hs hu=>inv_step w hs hu
 obtain ⟨bs,hbs⟩:=(refines w).guardedRuns (fun _ _ _ hs hu=>inv_step w hs hu)
  (fun _ _ _ hok hb=>inOrder_of_sendsInOrder hok hb) (inv_init w store env) h
 have hso : (s.sent.map Item.key).Pairwise (· < ·) := sorted_of_guardedRuns hbs
 rw [hi.channel,map_append] at hso
 exact pairwise_map.mp (pairwise_append.mp hso).1

def Pc.item : Pc Env Value → Option (Item Env Value)
  | .lockBest x => some x
  | .compare x => some x
  | .update x => some x
  | .unlock x => some x
  | .recordSeen x => some x
  | .send x => some x
  | _ => none

def Genuine (x : Item Env Value) : Prop := ∃ i, w.openItem x.env i x.bytes = .ok (x.version, x.value)

structure AllGenuine (s : Sys P ι Env Value) : Prop where
  tasks : ∀ i x, (s.tasks i).item = some x → Genuine w x
  sent : ∀ x ∈ s.sent, Genuine w x

lemma AllGenuine.move (hs : AllGenuine w s)
    (ht : u.tasks = update s.tasks i pc) (hi : ∀ x, pc.item = some x → Genuine w x)
    (hse : ∀ x ∈ u.sent, Genuine w x) : AllGenuine w u := by
 refine ⟨?_,hse⟩
 rw [ht]
 exact (forall_update_iff s.tasks fun _ pc=>∀ x, pc.item = some x → Genuine w x).mpr ⟨hi,fun j _=>hs.tasks j⟩

lemma allGenuine_fires (hs : AllGenuine w s) (h : Fires w s i u) : AllGenuine w u := by
 have same : ∀ {pc : Pc Env Value}, pc.item = (s.tasks i).item →
   ∀ x, pc.item = some x → Genuine w x := fun he x hx=>hs.tasks i x (he ▸ hx)
 cases h with
 | seen h | unseen h | dropped h | aborted h | stale h | closed h _ =>
  exact hs.move w rfl nofun hs.sent
 | opened h hopen => exact hs.move w rfl (fun _ hx=>some.inj hx ▸ ⟨i,hopen⟩) hs.sent
 | lock h _ | newer h _ | update h | unlock h | record h => exact hs.move w rfl (same (by rw [h]; rfl)) hs.sent
 | sent h _ =>
  refine hs.move w rfl nofun fun y hy=>?_
  rcases mem_append.mp hy with hy|hy
  · exact hs.sent y hy
  · rw [mem_singleton.mp hy]
    exact hs.tasks i _ (by rw [h]; rfl)

lemma allGenuine_step (hs : AllGenuine w s) (h : step w s a = some u) : AllGenuine w u := by
 cases a with
 | next i item =>
  obtain ⟨_,rfl|rfl|⟨bytes,rfl⟩⟩:=takeNext_cases h
  · exact hs
  · exact hs.move w rfl nofun hs.sent
  · exact hs.move w rfl nofun hs.sent
 | run i => exact allGenuine_fires w hs (fires_of_runTask w h)
 | recv =>
  obtain ⟨x,rest,_,rfl⟩:=recv_eq_some h
  exact ⟨hs.tasks,hs.sent⟩
 | close | change env =>
  rw [← some.inj h]
  exact ⟨hs.tasks,hs.sent⟩

/-- In every run, every delivered value is what some task opened. -/
theorem delivered_genuine (h : Runs (step w) (init w store env) as s) : ∀ x ∈ s.delivered, Genuine w x := by
 have hi : Inv s := h.invariant Inv (inv_init w store env) fun _ _ _ hs hu=>inv_step w hs hu
 have ha : AllGenuine w s := h.invariant (AllGenuine w)
  ⟨nofun,nofun⟩ fun _ _ _ hs hu=>allGenuine_step w hs hu
 intro x hx
 exact ha.sent x (hi.channel ▸ mem_append_left _ hx)

section Floor

def Pc.storeAfter (store : InMemoryInner P) : Pc Env Value → InMemoryInner P
  | .recordSeen x => (store.recordSeenSlotVersion w.stateKey x.version).1
  | _ => store

variable {s u : Sys P ι Env Value}

lemma store_of_runTask (h : runTask w s i = some u) : u.store = (s.tasks i).storeAfter w s.store := by
 cases fires_of_runTask w h with
 | record ht =>
  simp only [runTask,ht] at h
  rw [← some.inj h,ht]
  rfl
 | _ ht => rw [ht]; rfl

def Act.storeAfter (s : Sys P ι Env Value) : Act ι Env → InMemoryInner P
  | .run i => (s.tasks i).storeAfter w s.store
  | _ => s.store

lemma store_of_step (h : step w s a = some u) : u.store = a.storeAfter w s := by
 cases a with
 | next i item =>
  obtain ⟨_,rfl|rfl|⟨bytes,rfl⟩⟩:=takeNext_cases h
  · rfl
  · rfl
  · rfl
 | run i => exact store_of_runTask w h
 | recv =>
  obtain ⟨x,rest,_,rfl⟩:=recv_eq_some h
  rfl
 | close | change env => rw [← some.inj h]; rfl

omit [DecidableEq ι] in
lemma floor_storeAfter (s : Sys P ι Env Value) (a : Act ι Env) (k : Bytes) :
    s.store.floor k ≤ (a.storeAfter w s).floor k ∧
      (k ≠ w.stateKey → (a.storeAfter w s).floor k = s.store.floor k) := by
 cases a with
 | run i =>
  cases ht : s.tasks i with
  | recordSeen x =>
   simp only [Act.storeAfter,ht,Pc.storeAfter,InMemoryInner.floor_recordSeenSlotVersion]
   refine ⟨?_,fun hk=>if_neg hk⟩
   split
   · rename_i hk
     rw [hk]
     exact le_max_left _ _
   · exact le_rfl
  | _ =>
   rw [Act.storeAfter,ht]
   exact ⟨le_rfl,fun _=>rfl⟩
 | _ => exact ⟨le_rfl,fun _=>rfl⟩

/-- Every pair on its way to the receiver is at most the floor of the watched slot. -/
structure Recorded (s : Sys P ι Env Value) : Prop where
  sending : ∀ i x, s.tasks i = .send x → x.version ≤ s.store.floor w.stateKey
  channel : ∀ x ∈ s.channel, x.version ≤ s.store.floor w.stateKey

omit [DecidableEq ι] in
lemma recorded_init (store : InMemoryInner P) (env : Env) : Recorded w (init w store env) :=
 ⟨nofun,nofun⟩

omit [DecidableEq ι] in
lemma Recorded.raise (hs : Recorded w s) (env : Env) (h : s.store.floor w.stateKey ≤ store.floor w.stateKey) :
    Recorded w { s with store := store, env := env } :=
 ⟨fun i x hx=>(hs.sending i x hx).trans h,fun x hx=>(hs.channel x hx).trans h⟩

lemma Recorded.move (hs : Recorded w s) (ht : u.tasks = update s.tasks i pc)
    (hf : s.store.floor w.stateKey ≤ u.store.floor w.stateKey)
    (hse : ∀ x, pc = .send x → x.version ≤ u.store.floor w.stateKey)
    (hc : ∀ x ∈ u.channel, x ∈ s.channel ∨ s.tasks i = .send x) : Recorded w u := by
 refine ⟨?_,?_⟩
 · rw [ht]
   exact (forall_update_iff s.tasks fun _ pc=>∀ x, pc = .send x → x.version ≤ u.store.floor w.stateKey).mpr
    ⟨hse,fun j _ x hj=>(hs.sending j x hj).trans hf⟩
 · intro x hx
   rcases hc x hx with hx|hx
   · exact (hs.channel x hx).trans hf
   · exact (hs.sending i x hx).trans hf

/-- A task records the version before it sends the pair. -/
theorem recorded_runTask (hs : Recorded w s) (h : runTask w s i = some u) : Recorded w u := by
 have hst : u.store = (Act.run i : Act ι Env).storeAfter w s := store_of_runTask w h
 have hf : s.store.floor w.stateKey ≤ u.store.floor w.stateKey := hst ▸ (floor_storeAfter w s (.run i) w.stateKey).1
 have same : ∀ x ∈ s.channel, x ∈ s.channel ∨ s.tasks i = .send x := fun _ hx=>.inl hx
 cases fires_of_runTask w h with
 | @record x store ht =>
  refine hs.move w rfl hf ?_ same
  intro y hy
  obtain rfl:=Pc.send.inj hy
  rw [hst]
  simp only [Act.storeAfter,ht,Pc.storeAfter,InMemoryInner.floor_recordSeenSlotVersion,if_true]
  exact le_max_right _ _
 | sent ht _ =>
  refine hs.move w rfl hf nofun ?_
  intro y hy
  rcases mem_append.mp hy with hy|hy
  · exact .inl hy
  · rw [mem_singleton.mp hy]
    exact .inr ht
 | _ => exact hs.move w rfl hf nofun same

lemma recorded_step (hs : Recorded w s) (h : step w s a = some u) : Recorded w u := by
 cases a with
 | next i item =>
  obtain ⟨_,rfl|rfl|⟨bytes,rfl⟩⟩:=takeNext_cases h
  · exact hs
  · exact hs.move w rfl le_rfl nofun fun _ hx=>.inl hx
  · exact hs.move w rfl le_rfl nofun fun _ hx=>.inl hx
 | run i => exact recorded_runTask w hs h
 | recv =>
  obtain ⟨x,rest,hc,rfl⟩:=recv_eq_some h
  exact ⟨hs.sending,fun y hy=>hs.channel y (hc ▸ mem_cons_of_mem _ hy)⟩
 | close | change env =>
  rw [← some.inj h]
  exact ⟨hs.sending,hs.channel⟩

end Floor

end Enlace.Watch
