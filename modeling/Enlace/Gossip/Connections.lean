import Enlace.Gossip.Peers

set_option autoImplicit false

/-! The connections that the runtimes of a `GossipActor` obtain, and where they are closed. -/
namespace Enlace.Gossip
open Stateful List Function OrderedMap OrderedSet

variable {state : PeerState}

namespace PeerState

def Waits : PeerState → Prop
  | pending _ => True
  | active _ => False

lemma Waits.exists_pending (h : state.Waits) : ∃ next, state = pending next := by
 cases state with
 | pending next => exact ⟨next,rfl⟩
 | active _ => exact h.elim

lemma holds_of_activate {preferred direction : PeerConnectionDirection} {connection held : ConnectionId}
    {next : PeerActiveState} (h : state.activate preferred connection direction = some next)
    (hh : state.Holds held ∨ held = connection) : Holds held (.active next) := by
 cases state with
 | pending state =>
  cases h
  rcases hh with hh|rfl
  · exact hh.elim
  · exact .inl rfl
 | active state =>
  rw [activate] at h
  split_ifs at h with hs
  · cases h
    rcases hh with hh|rfl
    · exact hh
    · exact .inl hs
  · cases h
    rcases hh with (rfl|ho)|rfl
    · exact .inr (mem_add.mpr (.inr rfl))
    · exact .inr (mem_add.mpr (.inl ho))
    · exact .inl rfl

/-- What can happen to the state of a runtime, with the connections that are closed then: `told` if messages to its peer
are queued, `joined` if connections to it are taken. -/
inductive Moves (told joined : Prop) : PeerState → PeerState → List ConnectionId → Prop where
  | stay (state : PeerState) (gone : List ConnectionId) : Moves told joined state state gone
  | write (state : PeerActiveState) (queue : List QueuedMessage) (writers : List TopicId) :
      Moves told joined (active state) (active { state with sendQueue := queue, writers := writers }) []
  | close (state : PeerActiveState) :
      Moves told joined (active state) (active { state with writers := [], otherConnections := [] })
        (state.connection :: state.otherConnections)
  | drop (state : PeerActiveState) (connection : ConnectionId) : Moves told joined (active state)
        (active { state with otherConnections := OrderedSet.delete state.otherConnections connection }) [connection]
  | lose (state : PeerActiveState) (number : ℕ) :
      Moves told joined (active state) (pending ⟨number, state.sendQueue, false⟩)
        (state.connection :: state.otherConnections)
  | dial (state : PeerPendingState) (dialing : Bool) :
      Moves told joined (pending state) (pending { state with dialing := dialing }) []
  | queue (h : told) (state : PeerPendingState) (queue : List QueuedMessage) :
      Moves told joined (pending state) (pending { state with queue := queue }) []
  | activate (h : joined) {state : PeerState} {preferred direction : PeerConnectionDirection}
      {connection : ConnectionId}
      {next : PeerActiveState} (hnext : state.activate preferred connection direction = some next) :
      Moves told joined state (active next) []

section
variable {told joined : Prop} {next : PeerState} {gone : List ConnectionId} (h : Moves told joined state next gone)
include h

lemma Moves.holds {held : ConnectionId} (hh : state.Holds held) : next.Holds held ∨ held ∈ gone := by
 cases h with
 | stay | write => exact .inl hh
 | close | lose => exact .inr (mem_cons.mpr (hh.imp_left Eq.symm))
 | drop state connection =>
  by_cases heq : held = connection
  · exact .inr (mem_singleton.mpr heq)
  · exact .inl (hh.imp_right fun hm=>mem_delete.mpr ⟨hm,heq⟩)
 | dial | queue => exact hh.elim
 | activate _ hn => exact .inl (holds_of_activate hn (.inl hh))

lemma Moves.waits (hj : ¬ joined) (hw : state.Waits) : next.Waits := by
 cases h with
 | stay => exact hw
 | write | close | drop => exact hw
 | lose | dial | queue => trivial
 | activate hjo => exact absurd hjo hj

end

end PeerState

namespace PeerTable

variable (id : RuntimeId)

lemma runtimes_setState_self (state : PeerState) (t : PeerTable) :
    (t.setState id state).runtimes id = { t.runtimes id with state := state } := update_self ..

lemma runtimes_setState_of_ne {id other : RuntimeId} (hne : other ≠ id) (state : PeerState) (t : PeerTable) :
    (t.setState id state).runtimes other = t.runtimes other := update_of_ne hne ..

def Allocated (t : PeerTable) : Prop := ∀ peer id, OrderedMap.get t.peers peer = some id → id < t.nextRuntime

/-- The rest of the table when a runtime changes: `gone` is closed, and only for a message a connection is asked for. -/
structure Keeping (told : PeerId → Prop) (gone : List ConnectionId) (t next : PeerTable) : Prop where
  peers : next.peers = t.peers
  nextRuntime : next.nextRuntime = t.nextRuntime
  obtained : next.obtained = t.obtained
  connects : (∀ peer, ¬ told peer) → next.connects = t.connects
  closed : next.closedConnections = t.closedConnections ++ gone

lemma Keeping.setState (told : PeerId → Prop) (id : RuntimeId) (state : PeerState) (t : PeerTable) :
    Keeping told [] t (t.setState id state) := ⟨rfl,rfl,rfl,fun _=>rfl,(append_nil _).symm⟩

/-- A single change of the table, with messages and connections only for the given peers. -/
inductive Change (told joined : PeerId → Prop) (t : PeerTable) : PeerTable → Prop where
  | add {peer : PeerId} (h : OrderedMap.get t.peers peer = none) : Change told joined t (t.addRuntime peer)
  | move {id : RuntimeId} {state : PeerState} {gone : List ConnectionId} {next : PeerTable}
      (hmoves : PeerState.Moves (∃ peer, OrderedMap.get t.peers peer = some id ∧ told peer)
        (∃ peer, OrderedMap.get t.peers peer = some id ∧ joined peer) (t.runtimes id).state state gone)
      (hruntimes : next.runtimes = (t.setState id state).runtimes) (hkeeps : Keeping told gone t next) :
      Change told joined t next

abbrev Changes (told joined : PeerId → Prop) : PeerTable → PeerTable → Prop :=
  Relation.ReflTransGen (Change told joined)

lemma setState_setState (state after : PeerState) (t : PeerTable) :
    ((t.setState id state).setState id after).runtimes = (t.setState id after).runtimes := by
 change update (update t.runtimes id _) id { update t.runtimes id _ id with state := after } = _
 rw [update_idem,update_self]
 rfl

lemma closeRuntime_of_active {id : RuntimeId} {t : PeerTable} {state : PeerActiveState}
    (hs : (t.runtimes id).state = .active state) :
    closeRuntime id t = ((), { t.setState id (.active { state with writers := [], otherConnections := [] }) with
      closedConnections := t.closedConnections ++ state.connection :: state.otherConnections }) := by
 rw [closeRuntime,get_bind,hs]
 rfl

lemma requirePeer_of_some {id : RuntimeId} {peer : PeerId} {t : PeerTable}
    (hg : OrderedMap.get t.peers peer = some id) : requirePeer peer t = (id, t) := by
 rw [requirePeer,get_bind,hg]
 rfl

lemma requirePeer_of_none {peer : PeerId} {t : PeerTable} (hg : OrderedMap.get t.peers peer = none) :
    requirePeer peer t = (t.nextRuntime, t.addRuntime peer) := by
 rw [requirePeer,get_bind,hg]
 rfl

lemma state_addRuntime (peer : PeerId) (t : PeerTable) :
    ((t.addRuntime peer).runtimes t.nextRuntime).state = .pending ⟨t.nextPending, [], false⟩ := by
 change (update t.runtimes t.nextRuntime _ t.nextRuntime).state = _
 rw [update_self]

lemma get_requirePeer (peer : PeerId) (t : PeerTable) :
    OrderedMap.get (requirePeer peer t).2.peers peer = some (requirePeer peer t).1 := by
 cases hg : get t.peers peer with
 | some id =>
  rw [requirePeer_of_some hg]
  exact hg
 | none =>
  rw [requirePeer_of_none hg]
  change get (set t.peers peer t.nextRuntime) peer = some t.nextRuntime
  rw [get_set,if_pos rfl]

namespace Changes

variable {told joined : PeerId → Prop} {t next : PeerTable} {id : RuntimeId}

lemma move {before after : PeerState} {gone : List ConnectionId} (hs : (t.runtimes id).state = before)
    (hmoves : PeerState.Moves (∃ peer, OrderedMap.get t.peers peer = some id ∧ told peer)
      (∃ peer, OrderedMap.get t.peers peer = some id ∧ joined peer) before after gone)
    (hruntimes : next.runtimes = (t.setState id after).runtimes) (hk : Keeping told gone t next) :
    Changes told joined t next := by
 subst hs
 exact .single (.move hmoves hruntimes hk)

lemma rest {gone : List ConnectionId} (hruntimes : next.runtimes = t.runtimes) (hk : Keeping told gone t next) :
    Changes told joined t next := by
 have hs : (t.runtimes 0).state = _ := rfl
 exact move hs (.stay _ gone) (hruntimes.trans (update_eq_self 0 _).symm) hk

lemma requirePeer (peer : PeerId) (t : PeerTable) : Changes told joined t (PeerTable.requirePeer peer t).2 := by
 cases hg : get t.peers peer with
 | some id => rw [requirePeer_of_some hg]
 | none =>
  rw [requirePeer_of_none hg]
  exact .single (.add hg)

lemma closeRuntime (id : RuntimeId) (t : PeerTable) : Changes told joined t (PeerTable.closeRuntime id t).2 := by
 cases hs : (t.runtimes id).state with
 | pending state =>
  rw [PeerTable.closeRuntime,get_bind,hs]
  exact .refl
 | active state =>
  rw [closeRuntime_of_active hs]
  exact move hs (.close state) rfl ⟨rfl,rfl,rfl,fun _=>rfl,rfl⟩

lemma peerDisconnected (id : RuntimeId) (connection : ConnectionId) (t : PeerTable) :
    Changes told joined t (PeerTable.peerDisconnected id connection t).2 := by
 rw [PeerTable.peerDisconnected,get_bind]
 cases hs : (t.runtimes id).state with
 | pending state => exact .refl
 | active state =>
  dsimp only
  split_ifs
  · exact move hs (.drop state connection) rfl ⟨rfl,rfl,rfl,fun _=>rfl,rfl⟩
  · exact .refl
  · rw [bind_apply,closeRuntime_of_active hs]
    exact move hs (.lose state t.nextPending) (setState_setState id _ _ t) ⟨rfl,rfl,rfl,fun _=>rfl,rfl⟩

lemma flushRuntime (fail : Option ℕ) (id : RuntimeId) (t : PeerTable) :
    Changes told joined t (PeerTable.flushRuntime fail id t).2 := by
 rw [PeerTable.flushRuntime,get_bind]
 cases hs : (t.runtimes id).state with
 | pending state => exact .refl
 | active state =>
  dsimp only
  split_ifs
  · exact .trans (move hs (.write state _ _) rfl (.setState ..)) (peerDisconnected id state.connection _)
  · exact move hs (.write state _ _) rfl (.setState ..)

lemma sendMessage (fail : Option ℕ) {peer : PeerId} (ht : told peer) (event : QueuedMessage) (t : PeerTable) :
    Changes told joined t (PeerTable.sendMessage fail peer event t).2 := by
 have hg:=get_requirePeer peer t
 rw [PeerTable.sendMessage,bind_apply,get_bind]
 refine (requirePeer peer t).trans ?_
 generalize PeerTable.requirePeer peer t = required at hg
 obtain ⟨id,t⟩:=required
 cases hs : (t.runtimes id).state with
 | active state =>
  refine .trans ?_ (flushRuntime fail id _)
  exact move hs (.write state _ state.writers) rfl (.setState ..)
 | pending state =>
  refine .trans (move hs (.queue ⟨peer,hg,ht⟩ state (state.queue ++ [event])) rfl (.setState ..)) ?_
  change Changes _ _ _ (dial id _ _)
  unfold dial
  split_ifs
  · exact .refl
  · split
    · exact .refl
    · refine move ?_ (.dial _ true) rfl ⟨rfl,rfl,rfl,fun hno=>absurd ht (hno peer),(append_nil _).symm⟩
      rw [runtimes_setState_self]

lemma undial (id : RuntimeId) (t : PeerTable) :
    Changes told joined t (t.setState id (t.runtimes id).state.endDial) := by
 cases hs : (t.runtimes id).state with
 | pending state => exact move hs (.dial state false) rfl (.setState ..)
 | active state => exact move hs (.stay _ []) rfl (.setState ..)

lemma dialFailed (id : RuntimeId) (number : ℕ) (t : PeerTable) :
    Changes told joined t (PeerTable.dialFailed id number t).2 := by
 have he : Changes told joined t (t.endDial id number) := rest rfl ⟨rfl,rfl,rfl,fun _=>rfl,(append_nil _).symm⟩
 rw [PeerTable.dialFailed,modify_bind,get_bind]
 refine he.trans ?_
 split_ifs
 · exact undial id _
 · exact .refl

lemma startReading (closed : Bool) (id : RuntimeId) (connection : ConnectionId) (t : PeerTable) :
    Changes told joined t (t.startReading closed id connection) := by
 unfold PeerTable.startReading
 split_ifs
 · exact .refl
 · exact rest rfl ⟨rfl,rfl,rfl,fun _=>rfl,(append_nil _).symm⟩

lemma activateConnection (closed : Bool) (fail : Option ℕ) {peer : PeerId} (hj : joined peer)
    (connection : ConnectionId) (direction : PeerConnectionDirection) (t : PeerTable) :
    Changes told joined t (PeerTable.activateConnection closed fail peer connection direction t).2 := by
 have hg:=get_requirePeer peer t
 rw [PeerTable.activateConnection,bind_apply,get_bind]
 refine (requirePeer peer t).trans ?_
 generalize PeerTable.requirePeer peer t = required at hg
 obtain ⟨id,t⟩:=required
 cases ha : (t.runtimes id).state.activate (preferredDirection t.me peer) connection direction with
 | none => exact rest rfl ⟨rfl,rfl,rfl,fun _=>rfl,rfl⟩
 | some state =>
  refine .trans (.trans ?_ (startReading closed id connection _)) (flushRuntime fail id _)
  exact move rfl (.activate ⟨peer,hg,hj⟩ ha) rfl (.setState ..)

lemma dialed (closed : Bool) (fail : Option ℕ) {number : ℕ}
    (hj : (t.runtimes id).state.isPending number = true → joined (t.runtimes id).peer) (connection : ConnectionId) :
    Changes told joined ((t.endDial id number).acquire connection)
      (PeerTable.dialed closed fail id number connection t).2 := by
 rw [PeerTable.dialed,modify_bind,get_bind]
 split_ifs with hp
 · exact (undial id _).trans (activateConnection closed fail (hj hp) connection .outbound _)
 · exact rest rfl ⟨rfl,rfl,rfl,fun _=>rfl,rfl⟩

lemma closeRuntimes (ids : List RuntimeId) (t : PeerTable) :
    Changes told joined t (PeerTable.closeRuntimes ids t).2 := by
 induction ids generalizing t with
 | nil => exact .refl
 | cons id ids ih => exact (closeRuntime id t).trans (ih _)

lemma connects (h : Changes (fun _ => False) (fun _ => True) t next) : next.connects = t.connects := by
 induction h with
 | refl => rfl
 | tail _ hc ih =>
  cases hc with
  | add => exact ih
  | move _ _ hk => exact (hk.connects fun _=>not_false).trans ih

end Changes

structure Covers (t next : PeerTable) : Prop where
  nextRuntime : t.nextRuntime ≤ next.nextRuntime
  peers : ∀ peer id, OrderedMap.get t.peers peer = some id → OrderedMap.get next.peers peer = some id
  allocated : t.Allocated → next.Allocated
  obtained : next.obtained = t.obtained
  closed : t.closedConnections ⊆ next.closedConnections
  holds : ∀ id < t.nextRuntime, ∀ connection, (t.runtimes id).state.Holds connection →
    (next.runtimes id).state.Holds connection ∨ connection ∈ next.closedConnections

section
variable {told joined : PeerId → Prop} {t next : PeerTable}

lemma Change.covers (h : Change told joined t next) : Covers t next := by
 cases h with
 | @add peer hg =>
  refine ⟨Nat.le_succ _,fun other id ho=>?_,fun ha other id ho=>?_,rfl,List.Subset.refl _,
   fun id hid connection hh=>.inl ?_⟩
  · change get (set t.peers peer t.nextRuntime) other = some id
    rw [get_set,if_neg,ho]
    rintro rfl
    rw [hg] at ho
    cases ho
  · change get (set t.peers peer t.nextRuntime) other = some id at ho
    rw [get_set] at ho
    split_ifs at ho
    · cases ho
      exact Nat.lt_succ_self _
    · exact Nat.lt_succ_of_lt (ha other id ho)
  · change (update t.runtimes t.nextRuntime _ id).state.Holds connection
    rw [update_of_ne hid.ne]
    exact hh
 | @move id state gone _ hmoves hruntimes hk =>
  refine ⟨hk.nextRuntime.ge,fun peer other hg=>?_,fun ha peer other hg=>?_,hk.obtained,?_,
   fun other _ connection hh=>?_⟩
  · rw [hk.peers]
    exact hg
  · rw [hk.peers] at hg
    rw [hk.nextRuntime]
    exact ha peer other hg
  · rw [hk.closed]
    exact subset_append_left _ _
  · rw [hruntimes,hk.closed]
    by_cases heq : other = id
    · subst heq
      rw [runtimes_setState_self]
      exact (hmoves.holds hh).imp_right (mem_append_right _)
    · rw [runtimes_setState_of_ne heq]
      exact .inl hh

lemma Changes.covers (h : Changes told joined t next) : Covers t next := by
 induction h with
 | refl => exact ⟨le_rfl,fun _ _ h=>h,fun h=>h,rfl,List.Subset.refl _,fun _ _ _ h=>.inl h⟩
 | tail _ hc h =>
  have h':=hc.covers
  refine ⟨h.nextRuntime.trans h'.nextRuntime,fun peer id hg=>h'.peers peer id (h.peers peer id hg),
   fun ha=>h'.allocated (h.allocated ha),h'.obtained.trans h.obtained,List.Subset.trans h.closed h'.closed,
   fun id hid connection hh=>?_⟩
  rcases h.holds id hid connection hh with hk|hcl
  · exact h'.holds id (lt_of_lt_of_le hid h.nextRuntime) connection hk
  · exact .inr (h'.closed hcl)

lemma Covers.of_any (h : Changes (fun _ => True) (fun _ => True) t next) : Covers t next := h.covers

/-- What holds of the states of some peers' runtimes, and of a new one, still holds if what happens to them keeps it. -/
lemma Change.rests {S : PeerId → Prop} {P : PeerState → Prop} (h : Change told joined t next)
    (hr : ∀ peer id, S peer → OrderedMap.get t.peers peer = some id → P (t.runtimes id).state)
    (hn : ∀ number, P (.pending ⟨number, [], false⟩))
    (hmoves : ∀ peer id after gone, S peer → OrderedMap.get t.peers peer = some id →
      PeerState.Moves (∃ other, OrderedMap.get t.peers other = some id ∧ told other)
        (∃ other, OrderedMap.get t.peers other = some id ∧ joined other) (t.runtimes id).state after gone → P after)
    (peer : PeerId) (id : RuntimeId) (hS : S peer) (hg : OrderedMap.get next.peers peer = some id) :
    P (next.runtimes id).state := by
 cases h with
 | @add other ho =>
  change P (update t.runtimes t.nextRuntime _ id).state
  by_cases heq : id = t.nextRuntime
  · rw [heq,update_self]
    exact hn _
  · rw [update_of_ne heq]
    change get (set t.peers other t.nextRuntime) peer = some id at hg
    rw [get_set] at hg
    split_ifs at hg
    · exact absurd (Option.some.inj hg).symm heq
    · exact hr peer id hS hg
 | @move other state gone _ hm hruntimes hk =>
  rw [hk.peers] at hg
  rw [hruntimes]
  by_cases heq : id = other
  · subst heq
    rw [runtimes_setState_self]
    exact hmoves peer id state gone hS hg hm
  · rw [runtimes_setState_of_ne heq]
    exact hr peer id hS hg

end

variable {t : PeerTable} {connection : ConnectionId}

lemma closeRuntime_closes {id : RuntimeId}
    (h : (t.runtimes id).state.Holds connection) : connection ∈ (closeRuntime id t).2.closedConnections := by
 cases hs : (t.runtimes id).state with
 | pending state =>
  rw [hs] at h
  exact h.elim
 | active state =>
  rw [hs] at h
  rw [closeRuntime_of_active hs]
  exact mem_append_right _ (mem_cons.mpr (h.imp_left Eq.symm))

variable (closed : Bool) (fail : Option ℕ)

def Kept (t : PeerTable) (connection : ConnectionId) : Prop :=
  connection ∈ t.closedConnections ∨
    ∃ peer id, OrderedMap.get t.peers peer = some id ∧ (t.runtimes id).state.Holds connection

structure Secured (t : PeerTable) : Prop where
  allocated : t.Allocated
  kept : ∀ connection ∈ t.obtained, t.Kept connection

lemma Covers.kept {next : PeerTable} (h : Covers t next) (ha : t.Allocated)
    (hk : t.Kept connection) : next.Kept connection := by
 rcases hk with hc|⟨peer,id,hg,hh⟩
 · exact .inl (h.closed hc)
 · rcases h.holds id (ha peer id hg) connection hh with hhe|hc
   · exact .inr ⟨peer,id,h.peers peer id hg,hhe⟩
   · exact .inl hc

lemma Covers.secured {next : PeerTable} (h : Covers t next) (hs : t.Secured) : next.Secured where
 allocated := h.allocated hs.allocated
 kept connection hmem := by
  rw [h.obtained] at hmem
  exact h.kept hs.allocated (hs.kept connection hmem)

lemma activateConnection_kept (peer : PeerId) (connection : ConnectionId)
    (direction : PeerConnectionDirection) (ha : t.Allocated) :
    Covers t (activateConnection closed fail peer connection direction t).2 ∧
      (activateConnection closed fail peer connection direction t).2.Kept connection := by
 refine ⟨.of_any (.activateConnection closed fail trivial connection direction t),?_⟩
 have hr : Covers t (requirePeer peer t).2 := .of_any (.requirePeer peer t)
 have hg:=get_requirePeer peer t
 rw [activateConnection,bind_apply,get_bind]
 generalize requirePeer peer t = required at hr hg
 obtain ⟨id,u⟩:=required
 cases hac : (u.runtimes id).state.activate (preferredDirection u.me peer) connection direction with
 | none => exact .inl (mem_append_right _ mem_cons_self)
 | some state =>
  have hs : Covers u (u.setState id (.active state)) :=
   .of_any (.move rfl (.activate ⟨peer,hg,trivial⟩ hac) rfl (.setState ..))
  have hre : Covers (u.setState id (.active state))
   (startReading closed id connection (u.setState id (.active state))) :=
   .of_any (.startReading closed id connection _)
  have hf : Covers (startReading closed id connection (u.setState id (.active state))) _ :=
   .of_any (.flushRuntime fail id _)
  have ha:=hs.allocated (hr.allocated ha)
  refine hf.kept (hre.allocated ha) (hre.kept ha (.inr ⟨peer,id,hg,?_⟩))
  rw [runtimes_setState_self]
  exact PeerState.holds_of_activate hac (.inr rfl)

lemma secured_activateConnection (peer : PeerId) (connection : ConnectionId)
    (direction : PeerConnectionDirection) (ha : t.Allocated)
    (hk : ∀ other ∈ t.obtained, other = connection ∨ t.Kept other) :
    (activateConnection closed fail peer connection direction t).2.Secured := by
 obtain ⟨hc,hn⟩:=activateConnection_kept closed fail peer connection direction ha
 refine ⟨hc.allocated ha,fun other hm=>?_⟩
 rw [hc.obtained] at hm
 rcases hk other hm with rfl|hold
 · exact hn
 · exact hc.kept ha hold

lemma secured_accepted (peer : PeerId) (connection : ConnectionId) :
    Preserves Secured (accepted closed fail peer connection) := by
 intro t ht
 refine secured_activateConnection closed fail peer connection .inbound ht.allocated fun other hm=>?_
 rcases mem_append.mp hm with hold|hn
 · exact .inr (ht.kept other hold)
 · exact .inl (mem_singleton.mp hn)

lemma secured_dialed (id : RuntimeId) (number : ℕ) (connection : ConnectionId) :
    Preserves Secured (dialed closed fail id number connection) := by
 intro t ht
 rw [dialed,modify_bind,get_bind]
 have hk : ∀ other ∈ ((t.endDial id number).acquire connection).obtained,
   other = connection ∨ ((t.endDial id number).acquire connection).Kept other := by
  intro other hm
  rcases mem_append.mp hm with hold|hn
  · exact .inr (ht.kept other hold)
  · exact .inl (mem_singleton.mp hn)
 have ha : ((t.endDial id number).acquire connection).Allocated := ht.allocated
 generalize (t.endDial id number).acquire connection = u at hk ha
 split_ifs
 · have hc : Covers u (u.setState id (u.runtimes id).state.endDial) := .of_any (.undial id u)
   refine secured_activateConnection closed fail _ connection .outbound (hc.allocated ha) fun other hm=>?_
   exact (hk other hm).imp_right (hc.kept ha)
 · have hc : Covers u (closeConnection connection u).2 := .of_any (.rest rfl ⟨rfl,rfl,rfl,fun _=>rfl,rfl⟩)
   refine ⟨hc.allocated ha,fun other hm=>?_⟩
   rcases hk other hm with rfl|hold
   · exact .inl (mem_append_right _ mem_cons_self)
   · exact hc.kept ha hold

lemma secured_disconnectPeer (peer : PeerId) : Preserves Secured (disconnectPeer peer) := by
 intro t ht
 rw [disconnectPeer,get_bind]
 cases hg : get t.peers peer with
 | none => exact ht
 | some id =>
  have hc : Covers t (closeRuntime id t).2 := .of_any (.closeRuntime id t)
  change Secured { (closeRuntime id t).2 with peers := delete (closeRuntime id t).2.peers peer }
  constructor
  · intro other otherId ho
    rw [get_delete] at ho
    split_ifs at ho
    exact hc.allocated ht.allocated other otherId ho
  · intro connection hm
    rw [show ({ (closeRuntime id t).2 with peers := delete (closeRuntime id t).2.peers peer } :
     PeerTable).obtained = t.obtained from hc.obtained] at hm
    rcases ht.kept connection hm with hcl|⟨other,otherId,ho,hh⟩
    · exact .inl (hc.closed hcl)
    · by_cases heq : peer = other
      · subst heq
        obtain rfl:=Option.some.inj (hg.symm.trans ho)
        exact .inl (closeRuntime_closes hh)
      · rcases hc.holds otherId (ht.allocated other otherId ho) connection hh with hhe|hcl
        · refine .inr ⟨other,otherId,?_,hhe⟩
          rw [get_delete,if_neg heq]
          exact hc.peers other otherId ho
        · exact .inl hcl

lemma closeRuntimes_closes {ids : List RuntimeId} {id : RuntimeId} (hid : id < t.nextRuntime)
    (hm : id ∈ ids) (h : (t.runtimes id).state.Holds connection) :
    connection ∈ (closeRuntimes ids t).2.closedConnections := by
 induction ids generalizing t with
 | nil => cases hm
 | cons first ids ih =>
  have hc : Covers t (closeRuntime first t).2 := .of_any (.closeRuntime first t)
  have hrest : Covers (closeRuntime first t).2 _ := .of_any (.closeRuntimes ids _)
  rcases mem_cons.mp hm with rfl|hl
  · exact hrest.closed (closeRuntime_closes h)
  · rcases hc.holds id hid connection h with hh|hcl
    · exact ih (lt_of_lt_of_le hid hc.nextRuntime) hl hh
    · exact hrest.closed hcl

def Idle (t : PeerTable) : Prop := ∀ peer id, OrderedMap.get t.peers peer = some id → (t.runtimes id).state.Waits

structure Released (t : PeerTable) : Prop where
  allocated : t.Allocated
  idle : t.Idle
  closed : t.obtained ⊆ t.closedConnections

lemma Secured.closePeers (h : t.Secured) : (PeerTable.closePeers t).2.Released := by
 have hc : Covers t (closeRuntimes (t.peers.map Prod.snd) t).2 := .of_any (.closeRuntimes _ t)
 refine ⟨fun peer id hg=>?_,fun peer id hg=>?_,fun connection hm=>?_⟩
 · cases hg
 · cases hg
 · change connection ∈ (closeRuntimes (t.peers.map Prod.snd) t).2.obtained at hm
   rw [hc.obtained] at hm
   rcases h.kept connection hm with hcl|⟨peer,id,hg,hh⟩
   · exact hc.closed hcl
   · have hid : id ∈ t.peers.map Prod.snd := mem_map.mpr ⟨(peer,id),mem_of_get hg,rfl⟩
     exact closeRuntimes_closes (h.allocated peer id hg) hid hh

lemma Released.secured (h : t.Released) : t.Secured :=
 ⟨h.allocated,fun _ hm=>.inl (h.closed hm)⟩

lemma Changes.idle {next : PeerTable} (h : Changes (fun _ => True) (fun _ => False) t next) (hi : t.Idle) :
    next.Idle := by
 induction h with
 | refl => exact hi
 | tail _ hc ih =>
  refine fun peer id=>hc.rests (S := fun _=>True) (fun peer id _=>ih peer id) (fun _=>trivial) ?_ peer id trivial
  exact fun peer id _ _ _ hg hmoves=>hmoves.waits (fun hj=>hj.elim fun _ hn=>hn.2) (ih peer id hg)

lemma Released.of_changes {next : PeerTable} (h : t.Released) (hc : Changes (fun _ => True) (fun _ => False) t next) :
    next.Released where
 allocated := hc.covers.allocated h.allocated
 idle := hc.idle h.idle
 closed := by
  rw [hc.covers.obtained]
  exact List.Subset.trans h.closed hc.covers.closed

lemma Idle.disconnectPeer (h : t.Idle) (peer : PeerId) : (PeerTable.disconnectPeer peer t).2.Idle := by
 rw [PeerTable.disconnectPeer,get_bind]
 cases hg : get t.peers peer with
 | none => exact h
 | some id =>
  have hsa : (PeerTable.closeRuntime id t).2 = t := by
   obtain ⟨state,hs⟩:=(h peer id hg).exists_pending
   rw [PeerTable.closeRuntime,get_bind,hs]
   rfl
  change Idle { (PeerTable.closeRuntime id t).2 with
   peers := delete (PeerTable.closeRuntime id t).2.peers peer }
  rw [hsa]
  intro other otherId ho
  rw [get_delete] at ho
  split_ifs at ho
  exact h other otherId ho

lemma Released.disconnectPeer (h : t.Released) (peer : PeerId) : (PeerTable.disconnectPeer peer t).2.Released := by
 have hs : (PeerTable.disconnectPeer peer t).2.obtained = t.obtained ∧
   t.closedConnections ⊆ (PeerTable.disconnectPeer peer t).2.closedConnections := by
  rw [PeerTable.disconnectPeer,get_bind]
  cases get t.peers peer with
  | none => exact ⟨rfl,List.Subset.refl _⟩
  | some id =>
   have hc : Covers t (closeRuntime id t).2 := .of_any (.closeRuntime id t)
   exact ⟨hc.obtained,hc.closed⟩
 refine ⟨(secured_disconnectPeer peer t h.secured).allocated,h.idle.disconnectPeer peer,?_⟩
 rw [hs.1]
 exact List.Subset.trans h.closed hs.2

/-- The peer, if one of the writes of its queue and of a further message fails on the connection that its runtime goes
by. -/
def lost (fail : Option ℕ) (peer : PeerId) (t : PeerTable) : Option PeerId :=
  (OrderedMap.get t.peers peer).bind fun id =>
    match (t.runtimes id).state with
    | .pending _ => none
    | .active state =>
      if fail.any (· ≤ state.sendQueue.length) ∧ state.connection ∉ state.otherConnections then
        some (t.runtimes id).peer
      else none

lemma sendMessage_fst (fail : Option ℕ) (peer : PeerId) (event : QueuedMessage) (t : PeerTable) :
    (PeerTable.sendMessage fail peer event t).1 = t.lost fail peer := by
 rw [PeerTable.sendMessage,bind_apply,get_bind,lost]
 cases hg : get t.peers peer with
 | none =>
  rw [requirePeer_of_none hg,state_addRuntime]
  rfl
 | some id =>
  rw [requirePeer_of_some hg,Option.bind_some]
  cases hs : (t.runtimes id).state with
  | pending state => rfl
  | active state =>
   have hth : (writeFrames fail (state.sendQueue ++ [event]) state.writers).2 = true ↔
     fail.any (· ≤ state.sendQueue.length) = true := by
    rw [writeFrames_throws,Throws,Option.any_eq_true]
    simp only [List.length_append,List.length_singleton,decide_eq_true_eq,Nat.lt_succ_iff]
   dsimp only
   rw [set_bind,PeerTable.flushRuntime,get_bind,runtimes_setState_self]
   dsimp only
   rw [set_bind]
   by_cases hw : fail.any (· ≤ state.sendQueue.length) = true
   · rw [if_pos (hth.mpr hw),PeerTable.peerDisconnected,get_bind,runtimes_setState_self,runtimes_setState_self]
     dsimp only
     by_cases ho : state.connection ∈ state.otherConnections
     · rw [if_pos ho,if_neg fun h=>h.2 ho]
       rfl
     · rw [if_neg ho,if_neg (not_not.mpr rfl),if_pos ⟨hw,ho⟩]
       rfl
   · rw [if_neg (mt hth.mp hw),if_neg fun h=>hw h.1]
     rfl

def queued (peer : PeerId) (t : PeerTable) : List QueuedMessage :=
  match OrderedMap.get t.peers peer with
  | none => []
  | some id =>
    match (t.runtimes id).state with
    | .pending state => state.queue
    | .active state => state.sendQueue

lemma Idle.pending_requirePeer (h : t.Idle) (peer : PeerId) :
    ∃ state, ((PeerTable.requirePeer peer t).2.runtimes (PeerTable.requirePeer peer t).1).state = .pending state ∧
      state.queue = t.queued peer := by
 rw [queued]
 cases hg : get t.peers peer with
 | none =>
  rw [requirePeer_of_none hg]
  exact ⟨_,state_addRuntime peer t,rfl⟩
 | some id =>
  rw [requirePeer_of_some hg]
  obtain ⟨state,hs⟩:=(h peer id hg).exists_pending
  dsimp only
  rw [hs]
  exact ⟨state,rfl,rfl⟩

lemma peerDisconnected_of_active {id : RuntimeId} {state : PeerActiveState}
    (hs : (t.runtimes id).state = .active state) (ho : state.otherConnections = []) :
    (peerDisconnected id state.connection t).2.closedConnections = t.closedConnections ++ [state.connection] ∧
      (peerDisconnected id state.connection t).2.peers = t.peers ∧
      ((peerDisconnected id state.connection t).2.runtimes =
        (t.setState id (.pending ⟨t.nextPending, state.sendQueue, false⟩)).runtimes) := by
 have hl : (peerDisconnected id state.connection t).2 = waitAgain id state.sendQueue (closeRuntime id t).2 := by
  rw [peerDisconnected,get_bind,hs]
  dsimp only
  rw [if_neg (by rw [ho]; exact not_mem_nil),if_neg (not_not.mpr rfl)]
  rfl
 rw [hl,closeRuntime_of_active hs,ho]
 exact ⟨rfl,rfl,setState_setState id _ _ t⟩

section
variable {t : PeerTable} {fail : Option ℕ} {peer : PeerId} {connection : ConnectionId}
  {direction : PeerConnectionDirection}

lemma Idle.activateConnection_closed (fail : Option ℕ) (peer : PeerId) (connection : ConnectionId)
    (direction : PeerConnectionDirection) (h : t.Idle) :
    (Throws fail (t.queued peer) → (activateConnection true fail peer connection direction t).2.Idle ∧
      connection ∈ (activateConnection true fail peer connection direction t).2.closedConnections) ∧
    (¬ Throws fail (t.queued peer) →
      (activateConnection true fail peer connection direction t).2.closedConnections = t.closedConnections) := by
 have hi : (requirePeer peer t).2.Idle := (Changes.requirePeer peer t).idle h
 obtain ⟨pending,hp,hq⟩:=h.pending_requirePeer peer
 have hc : (PeerTable.requirePeer peer t).2.closedConnections = t.closedConnections := by
  cases hg : get t.peers peer with
  | some id => rw [requirePeer_of_some hg]
  | none =>
   rw [requirePeer_of_none hg]
   rfl
 rw [activateConnection,bind_apply,get_bind,← hc,← hq]
 generalize PeerTable.requirePeer peer t = required at hi hp
 obtain ⟨id,u⟩:=required
 rw [hp]
 dsimp only [PeerState.activate,startReading]
 rw [set_bind,if_pos rfl,flushRuntime,get_bind,runtimes_setState_self]
 dsimp only
 rw [set_bind,← writeFrames_throws fail pending.queue []]
 generalize hwr : writeFrames fail pending.queue [] = written
 refine ⟨fun ht=>?_,fun hw=>?_⟩
 · have hs : ((u.setState id (.active ⟨pending.queue,connection,direction,[],[]⟩)).setState id
     (.active ⟨written.1.1,connection,direction,written.1.2,[]⟩)).runtimes id =
     ⟨(u.runtimes id).peer,.active ⟨written.1.1,connection,direction,written.1.2,[]⟩⟩ := by
    rw [setState_setState,runtimes_setState_self]
   rw [if_pos ht]
   obtain ⟨he,hpe,hruntimes⟩:=peerDisconnected_of_active (congrArg PeerRuntime.state hs) rfl
   rw [setState_setState,setState_setState] at hruntimes
   refine ⟨fun peer other hg=>?_,?_⟩
   · rw [hpe] at hg
     rw [hruntimes]
     by_cases heq : other = id
     · rw [heq,runtimes_setState_self]
       trivial
     · rw [runtimes_setState_of_ne heq]
       exact hi peer other hg
   · rw [he]
     exact mem_append_right _ mem_cons_self
 · rw [if_neg hw]
   rfl

lemma released_activateConnection (fail : Option ℕ) (peer : PeerId) (direction : PeerConnectionDirection)
    (hi : t.Idle) (ha : t.Allocated) (hm : connection ∈ t.obtained)
    (hold : ∀ other ∈ t.obtained, other ∈ t.closedConnections ∨ other = connection)
    (hf : connection ∉ t.closedConnections) :
    (Throws fail (t.queued peer) → (activateConnection true fail peer connection direction t).2.Released) ∧
      ((activateConnection true fail peer connection direction t).2.obtained ⊆
        (activateConnection true fail peer connection direction t).2.closedConnections →
          Throws fail (t.queued peer)) := by
 obtain ⟨hco,_⟩:=activateConnection_kept true fail peer connection direction ha
 obtain ⟨ht,hw⟩:=hi.activateConnection_closed fail peer connection direction
 refine ⟨fun hth=>?_,fun hc=>?_⟩
 · obtain ⟨haf,he⟩:=ht hth
   refine ⟨hco.allocated ha,haf,fun other ho=>?_⟩
   rw [hco.obtained] at ho
   rcases hold other ho with hc|rfl
   · exact hco.closed hc
   · exact he
 · by_contra hno
   rw [hco.obtained,hw hno] at hc
   exact hf (hc hm)

lemma closed_or_eq_of_mem_acquire (connection : ConnectionId) (h : t.Released) (other : ConnectionId)
    (ho : other ∈ (t.acquire connection).obtained) : other ∈ t.closedConnections ∨ other = connection := by
 rcases mem_append.mp ho with hold|hn
 · exact .inl (h.closed hold)
 · exact .inr (mem_singleton.mp hn)

lemma Released.accepted (h : t.Released) (hf : connection ∉ t.closedConnections) :
    (Throws fail (t.queued peer) → (PeerTable.accepted true fail peer connection t).2.Released) ∧
      ((PeerTable.accepted true fail peer connection t).2.obtained ⊆
        (PeerTable.accepted true fail peer connection t).2.closedConnections → Throws fail (t.queued peer)) := by
 have hi : (t.acquire connection).Idle := h.idle
 have ha : (t.acquire connection).Allocated := h.allocated
 exact released_activateConnection fail peer .inbound hi ha (mem_append_right _ mem_cons_self)
  (closed_or_eq_of_mem_acquire connection h) hf

lemma queued_setState_endDial (peer : PeerId) (t : PeerTable) :
    (t.setState id (t.runtimes id).state.endDial).queued peer = t.queued peer := by
 unfold queued
 change (match get t.peers peer with | none => [] | some other => _) = _
 cases get t.peers peer with
 | none => rfl
 | some other =>
  dsimp only
  by_cases heq : other = id
  · rw [heq,runtimes_setState_self]
    cases (t.runtimes id).state with
    | pending state => rfl
    | active state => rfl
  · rw [runtimes_setState_of_ne heq]

lemma Released.dialed {id : RuntimeId} {number : ℕ} (h : t.Released) (hf : connection ∉ t.closedConnections) :
    (((t.runtimes id).state.isPending number = true → Throws fail (t.queued (t.runtimes id).peer)) →
        (PeerTable.dialed true fail id number connection t).2.Released) ∧
      ((PeerTable.dialed true fail id number connection t).2.obtained ⊆
        (PeerTable.dialed true fail id number connection t).2.closedConnections →
        (t.runtimes id).state.isPending number = true → Throws fail (t.queued (t.runtimes id).peer)) := by
 have he : (t.endDial id number).Released := ⟨h.allocated,h.idle,h.closed⟩
 have hi : ((t.endDial id number).acquire connection).Idle := h.idle
 have ha : ((t.endDial id number).acquire connection).Allocated := h.allocated
 have hm:=closed_or_eq_of_mem_acquire connection he
 rw [PeerTable.dialed,modify_bind,get_bind]
 by_cases hp : (t.runtimes id).state.isPending number = true
 · have hs : Changes (fun _=>True) (fun _=>False) ((t.endDial id number).acquire connection) _ := .undial id _
   have hq : (((t.endDial id number).acquire connection).setState id (t.runtimes id).state.endDial).queued
     (t.runtimes id).peer = t.queued (t.runtimes id).peer := queued_setState_endDial id _ _
   have hr:=released_activateConnection fail (t.runtimes id).peer .outbound
    (hs.idle hi) (hs.covers.allocated ha) (mem_append_right _ mem_cons_self) hm hf
   have hb : (((t.endDial id number).acquire connection).runtimes id).state.isPending number = true := hp
   rw [if_pos hb,← hq]
   exact ⟨fun ht=>hr.1 (ht hp),fun hc _=>hr.2 hc⟩
 · have hb : ¬ (((t.endDial id number).acquire connection).runtimes id).state.isPending number = true := hp
   rw [if_neg hb]
   refine ⟨fun _=>⟨ha,hi,fun other ho=>?_⟩,fun _ hno=>absurd hno hp⟩
   rcases hm other ho with hc|rfl
   · exact mem_append_left _ hc
   · exact mem_append_right _ mem_cons_self

end

end PeerTable

end Enlace.Gossip
