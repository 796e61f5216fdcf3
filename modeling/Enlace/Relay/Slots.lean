import Enlace.Relay.Tables
import Enlace.Lib.Transition

set_option autoImplicit false

/-! Slot writes of a relay with a `PersistentSlots` store. A request first enters the tables and is
then inserted into the store and flushed, each in a step of its own; the relay may restart at any
point. Of the store it is assumed that a restart keeps what was flushed and some beginning of what
was inserted since. -/
namespace Enlace.Relay
open ByteString Fallible Table Transition DurableLog List Option Keyed Store

structure Reply where
  code : ℕ
  text : String
  deriving DecidableEq

namespace Reply

def unauthorized : Reply := ⟨401, "unauthorized"⟩
def malformedId : Reply := ⟨400, "malformed id"⟩
def malformedVersion : Reply := ⟨400, "malformed version"⟩
def payloadTooLarge : Reply := ⟨413, "payload too large"⟩
def staleVersion : Reply := ⟨409, "stale version"⟩
def serverError : Reply := ⟨500, "internal error"⟩
def noContent : Reply := ⟨204, ""⟩

end Reply

structure SlotRequest where
  id : Bytes
  auth : Option Bytes
  version : Option Bytes
  body : Bytes

def checkAuth (cfg : RelayConfig) (header : Option Bytes) : Bool :=
  cfg.auth.all fun expected => header == some expected

def parseDigit (value : ℕ) (b : UInt8) : Option ℕ :=
  let next := value * 10 + (b.toNat - 0x30)
  if 0x30 ≤ b ∧ b ≤ 0x39 ∧ next < 2^64 then some next else none

def parseU64 (text : Bytes) : Option UInt64 :=
  let digits := if text.head? = some 0x2b then text.tail else text
  if digits.isEmpty then none else (digits.foldlM parseDigit 0).map UInt64.ofNat

structure Write where
  id : RelayId
  slot : SlotEntry

/-- The checks of `slot_write` before it touches the tables. -/
def checkWrite (cfg : RelayConfig) (now : ℕ) (r : SlotRequest) : Res Reply Write := do
  ensure (checkAuth cfg r.auth) .unauthorized
  let id ← okOr .malformedId (RelayId.parse r.id)
  let version ← okOr .malformedVersion (r.version.bind parseU64)
  ensure (r.body.length ≤ cfg.maxBodyBytes) .payloadTooLarge
  if h : now + cfg.slotTtl < maxTime then
    return ⟨id, version, r.body, now + cfg.slotTtl, h⟩
  else .error .abort

inductive Pc where
  | idle
  | put (w : Write)
  | insert (w : Write)
  | flush (w : Write)
  | respond (w : Write)
  | done (reply : Option Reply)

/-- `acked` are the writes answered with 204, `old` those answered before the last restart. -/
structure Sys (ι : Type) where
  now : ℕ
  tables : Tables
  db : Store RelayId Bytes
  pcs : ι → Pc
  acked : List Write
  old : List Write

inductive Act (ι : Type) where
  | request (i : ι) (r : SlotRequest)
  | run (i : ι)
  | fail (i : ι)
  | read (id : RelayId) (since : UInt64)
  | background (n : ℕ)
  | tick (time : ℕ)
  | restart (n : ℕ)

def live (now : ℕ) (raw : Bytes) : Option SlotEntry :=
  (toOption (decodeSlot raw)).filter fun slot => !slot.expired now

def stored (now : ℕ) (db : Map RelayId Bytes) : List StoredRecord := db.entries.map fun e => ⟨e.1.val, e.2, now⟩

/-- What `PersistentSlots::open` serves, and the store without the keys it removes. -/
def load (now : ℕ) (db : Map RelayId Bytes) : Option (Map RelayId SlotEntry × Map RelayId Bytes) :=
  (toOption (openSlots (.sound (stored now db)))).map fun scan =>
    (scan.slots, (scan.expired.filterMap RelayId.parse).foldl erase db)

variable {ι : Type} [DecidableEq ι]

def start (now : ℕ) (db : Map RelayId Bytes) (acked : List Write) : Option (Sys ι) :=
  (load now db).map fun p => ⟨now, ⟨.empty, p.1⟩, ⟨p.2, []⟩, fun _ => .idle, acked, acked⟩

def Sys.setPc (s : Sys ι) (i : ι) (pc : Pc) : Sys ι := { s with pcs := Function.update s.pcs i pc }

def request (cfg : RelayConfig) (s : Sys ι) (i : ι) (r : SlotRequest) : Option (Sys ι) :=
  match s.pcs i with
  | .idle => some (s.setPc i (match checkWrite cfg s.now r with
    | .ok w => .put w
    | .error (.error reply) => .done (some reply)
    | .error .abort => .done none))
  | _ => none

def run (s : Sys ι) (i : ι) : Option (Sys ι) :=
  match s.pcs i with
  | .put w =>
    match s.tables.putSlot s.now w.id w.slot with
    | none => some (s.setPc i (.done (some .staleVersion)))
    | some tables => some ({ s with tables := tables }.setPc i (.insert w))
  | .insert w => some ({ s with db := s.db.insert w.id (encodeSlot w.slot) }.setPc i (.flush w))
  | .flush w => some ({ s with db := s.db.flush }.setPc i (.respond w))
  | .respond w => some ({ s with acked := s.acked ++ [w] }.setPc i (.done (some .noContent)))
  | _ => none

def failPersist (s : Sys ι) (i : ι) : Option (Sys ι) :=
  match s.pcs i with
  | .insert _ => some (s.setPc i (.done (some .serverError)))
  | .flush _ => some (s.setPc i (.done (some .serverError)))
  | _ => none

def step (cfg : RelayConfig) (s : Sys ι) : Act ι → Option (Sys ι)
  | .request i r => request cfg s i r
  | .run i => run s i
  | .fail i => failPersist s i
  | .read id since => some { s with tables := (s.tables.getSlotNewer s.now id since).1 }
  | .background n => some { s with db := s.db.persist n }
  | .tick time => some { s with now := time }
  | .restart n => start s.now (s.db.view n) s.acked

def Write.expiry (w : Write) : ℕ := wholeSecs w.slot.expiresAt

/-- A write is inserted only over an unexpired entry that is no newer and expires no later. -/
def Pc.InsertsInOrder (now : ℕ) (db : Map RelayId Bytes) : Pc → Prop
  | .insert w => ∀ e ∈ (db.get w.id).bind (live now), e.version ≤ w.slot.version ∧ e.expiresAt ≤ w.expiry
  | _ => True

/-- Insertions are in order, the clock does not go back, and no acknowledged write is within a second of its expiry when
the relay restarts or the clock is read afterwards. -/
def Orderly (s : Sys ι) : Act ι → Prop
  | .run i => (s.pcs i).InsertsInOrder s.now s.db.current
  | .tick time => s.now ≤ time ∧ ∀ w ∈ s.old, time < w.slot.expiresAt → time < w.expiry
  | .restart _ => ∀ w ∈ s.acked, s.now < w.slot.expiresAt → s.now < w.expiry
  | _ => True

instance (now : ℕ) (db : Map RelayId Bytes) : DecidablePred (Pc.InsertsInOrder now db)
  | .insert w => inferInstanceAs (Decidable (∀ e ∈ (db.get w.id).bind (live now),
      e.version ≤ w.slot.version ∧ e.expiresAt ≤ w.expiry))
  | .idle => instDecidableTrue
  | .put _ => instDecidableTrue
  | .flush _ => instDecidableTrue
  | .respond _ => instDecidableTrue
  | .done _ => instDecidableTrue

instance (s : Sys ι) : DecidablePred (Orderly s)
  | .run i => inferInstanceAs (Decidable ((s.pcs i).InsertsInOrder s.now s.db.current))
  | .tick time => inferInstanceAs (Decidable (s.now ≤ time ∧ ∀ w ∈ s.old, time < w.slot.expiresAt → time < w.expiry))
  | .restart _ => inferInstanceAs (Decidable (∀ w ∈ s.acked, s.now < w.slot.expiresAt → s.now < w.expiry))
  | .request _ _ => instDecidableTrue
  | .fail _ => instDecidableTrue
  | .read _ _ => instDecidableTrue
  | .background _ => instDecidableTrue

def Dominates (now : ℕ) (w : Write) (db : Map RelayId Bytes) : Prop :=
  now < w.expiry → ∃ raw e, db.get w.id = some raw ∧ decodeSlot raw = .ok e ∧
    w.slot.version ≤ e.version ∧ w.expiry ≤ e.expiresAt

def Held (now : ℕ) (w : Write) (slots : Map RelayId SlotEntry) : Prop :=
  now < w.expiry → ∃ e, slots.get w.id = some e ∧ w.slot.version ≤ e.version ∧ w.expiry ≤ e.expiresAt

lemma live_eq_some {now : ℕ} {raw : Bytes} {e : SlotEntry} :
    live now raw = some e ↔ decodeSlot raw = .ok e ∧ now < e.expiresAt := by
 rw [live,filter_eq_some_iff,toOption_eq_some,SlotEntry.expired,Bool.not_eq_true', decide_eq_false_iff_not,not_le]

variable {db : Map RelayId Bytes} {i : ι} {new w : Write} {pc : Pc} {slots : Map RelayId SlotEntry} {t : Tables}

lemma Dominates.mono {now later : ℕ} (h : Dominates now w db)
    (hle : now ≤ later) : Dominates later w db := fun hlt=>h (hle.trans_lt hlt)

lemma Held.mono {now later : ℕ} (h : Held now w slots)
    (hle : now ≤ later) : Held later w slots := fun hlt=>h (hle.trans_lt hlt)

lemma dominates_insert_self (now : ℕ) (w : Write) (db : Map RelayId Bytes) :
    Dominates now w (db.insert w.id (encodeSlot w.slot) trivial) := by
 intro _
 refine ⟨_,_,?_,decodeSlot_encodeSlot w.slot,le_refl _,le_refl _⟩
 rw [get_insert,if_pos rfl]

lemma Dominates.insert {now : ℕ} (h : Dominates now w db)
    (ho : ∀ e ∈ (db.get new.id).bind (live now), e.version ≤ new.slot.version ∧ e.expiresAt ≤ new.expiry) :
    Dominates now w (db.insert new.id (encodeSlot new.slot) trivial) := by
 intro hlt
 obtain ⟨raw,e,hg,hd,hve,hex⟩:=h hlt
 by_cases hid : w.id = new.id
 · have hl : live now raw = some e := live_eq_some.mpr ⟨hd,hlt.trans_le hex⟩
   obtain ⟨hv,he⟩:=ho e (by rw [← hid,hg]; exact hl)
   refine ⟨_,_,?_,decodeSlot_encodeSlot new.slot,hve.trans hv,hex.trans he⟩
   rw [get_insert,if_pos hid]
 · refine ⟨raw,e,?_,hd,hve,hex⟩
   rw [get_insert,if_neg hid]
   exact hg

section Invariant

variable (cfg : RelayConfig)

/-- A write that has been flushed survives every crash; one that has not reached the tables expires after all that the
last restart served. -/
def Sys.PcOk (s : Sys ι) : Pc → Prop
  | .put w => w.slot.expiresAt ≤ s.now + cfg.slotTtl ∧ ∀ old ∈ s.old, old.slot.expiresAt ≤ w.slot.expiresAt
  | .insert w => w.slot.expiresAt ≤ s.now + cfg.slotTtl
  | .flush w => w.slot.expiresAt ≤ s.now + cfg.slotTtl ∧ Dominates s.now w s.db.current
  | .respond w => w.slot.expiresAt ≤ s.now + cfg.slotTtl ∧ s.db.Always (Dominates s.now w)
  | _ => True

structure Inv (s : Sys ι) : Prop where
  pcs : ∀ i, s.PcOk cfg (s.pcs i)
  acked : ∀ w ∈ s.acked, w.slot.expiresAt ≤ s.now + cfg.slotTtl ∧ s.db.Always (Dominates s.now w)
  old : ∀ w ∈ s.old, w ∈ s.acked ∧ (s.now < w.slot.expiresAt → s.now < w.expiry)
  held : ∀ w ∈ s.old, Held s.now w s.tables.slots

/-- The store and the clock move, and what dominates a write goes on to do so. -/
structure Later (s u : Sys ι) : Prop where
  now : s.now ≤ u.now
  old : u.old = s.old
  current : ∀ w, Dominates s.now w s.db.current → Dominates u.now w u.db.current
  always : ∀ w, s.db.Always (Dominates s.now w) → u.db.Always (Dominates u.now w)

variable {cfg} {s u : Sys ι}

omit [DecidableEq ι] in
lemma Later.of_eq (hn : u.now = s.now) (hold : u.old = s.old) (hdb : u.db = s.db) : Later s u :=
 ⟨hn.ge,hold,fun _ h=>by rw [hn,hdb]; exact h,fun _ h=>by rw [hn,hdb]; exact h⟩

omit [DecidableEq ι] in
lemma Later.pcOk (h : Later s u) (hpc : s.PcOk cfg pc) : u.PcOk cfg pc := by
 have hle:=Nat.add_le_add_right h.now cfg.slotTtl
 cases pc with
 | put w => exact ⟨hpc.1.trans hle,h.old.symm ▸ hpc.2⟩
 | insert w => exact le_trans hpc hle
 | flush w => exact ⟨hpc.1.trans hle,h.current w hpc.2⟩
 | respond w => exact ⟨hpc.1.trans hle,h.always w hpc.2⟩
 | _ => trivial

lemma Inv.move (hs : Inv cfg s) (h : Later s u) (hn : u.now = s.now)
    (hp : u.pcs = Function.update s.pcs i pc) (hpc : u.PcOk cfg pc) (ha : u.acked = s.acked)
    (hh : ∀ w ∈ s.old, Held s.now w u.tables.slots) : Inv cfg u where
 pcs := by
  rw [hp]
  exact (Function.forall_update_iff _ fun _ pc=>u.PcOk cfg pc).mpr ⟨hpc,fun j _=>h.pcOk (hs.pcs j)⟩
 acked := by
  rw [ha]
  intro w hw
  exact ⟨hn ▸ (hs.acked w hw).1,h.always w (hs.acked w hw).2⟩
 old := by
  rw [h.old,ha,hn]
  exact hs.old
 held := by
  rw [h.old,hn]
  exact hh

lemma inv_request {r : SlotRequest} (hs : Inv cfg s) (h : request cfg s i r = some u) : Inv cfg u := by
 unfold request at h
 split at h
 · rw [← some.inj h]
   refine hs.move (.of_eq rfl rfl rfl) rfl rfl ?_ rfl hs.held
   split
   · rename_i w hw
     simp only [checkWrite,bind_eq_ok,ensure_eq_ok,okOr_eq_ok] at hw
     obtain ⟨_,_,id,_,version,_,_,_,hw⟩:=hw
     split at hw
     · rw [← Except.ok.inj hw]
       exact ⟨le_refl _,fun old hold=>(hs.acked old (hs.old old hold).1).1⟩
     · cases hw
   · trivial
   · trivial
 · cases h

variable {now : ℕ}

/-- A slot entered after a restart replaces what the restart serves only by something newer that lasts longer. -/
theorem held_putSlot {t' : Tables} (h : Held now w t.slots) (hp : t.putSlot now new.id new.slot = some t')
    (hl : w.slot.expiresAt ≤ new.slot.expiresAt) : Held now w t'.slots := by
 unfold Tables.putSlot at hp
 split at hp
 · cases hp
 · rename_i hs
   rw [← some.inj hp]
   intro hlt
   obtain ⟨e,hg,hv,he⟩:=h hlt
   by_cases hid : w.id = new.id
   · refine ⟨new.slot,?_,?_,(wholeSecs_le _).trans hl⟩
     · rw [get_insert,if_pos hid]
     · have hf : e.expired now = false := decide_eq_false (by omega)
       rw [← hid,hg,any_some,hf,Bool.not_false,Bool.true_and,decide_eq_true_eq,not_le] at hs
       exact hv.trans (le_of_lt hs)
   · refine ⟨e,?_,hv,he⟩
     rw [get_insert,if_neg hid]
     exact hg

lemma inv_run (hs : Inv cfg s) (hok : Orderly s (.run i)) (h : run s i = some u) : Inv cfg u := by
 unfold run at h
 have hpc:=hs.pcs i
 change (s.pcs i).InsertsInOrder s.now s.db.current at hok
 cases ht : s.pcs i with
 | idle | done reply => rw [ht] at h; cases h
 | put w =>
  rw [ht] at h hpc
  simp only at h
  cases hp : s.tables.putSlot s.now w.id w.slot with
  | none =>
   rw [hp] at h
   rw [← some.inj h]
   exact hs.move (.of_eq rfl rfl rfl) rfl rfl trivial rfl hs.held
  | some tables =>
   rw [hp] at h
   rw [← some.inj h]
   refine hs.move (.of_eq rfl rfl rfl) rfl rfl hpc.1 rfl fun old hold=>?_
   exact held_putSlot (hs.held old hold) hp (hpc.2 old hold)
 | insert w =>
  rw [ht] at h hpc hok
  rw [← some.inj h]
  have hst : ∀ old, Dominates s.now old s.db.current →
    Dominates s.now old (s.db.current.insert w.id (encodeSlot w.slot) trivial) :=
   fun old hold=>hold.insert hok
  refine hs.move ⟨le_refl _,rfl,?_,?_⟩ rfl rfl ⟨hpc,?_⟩ rfl hs.held
  · intro old hold
    change Dominates s.now old (s.db.insert w.id (encodeSlot w.slot)).current
    rw [current_insert]
    exact hst old hold
  · intro old hold
    exact Store.Always.insert hold (hst old hold.current)
  · change Dominates s.now w (s.db.insert w.id (encodeSlot w.slot)).current
    rw [current_insert]
    exact dominates_insert_self _ _ _
 | flush w =>
  rw [ht] at h hpc
  rw [← some.inj h]
  refine hs.move ⟨le_refl _,rfl,?_,fun _ hold=>hold.persist _⟩ rfl rfl ⟨hpc.1,?_⟩ rfl hs.held
  · intro old hold
    change Dominates s.now old (s.db.persist _).current
    rw [current_persist]
    exact hold
  · exact always_flush hpc.2
 | respond w =>
  rw [ht] at h hpc
  rw [← some.inj h]
  have hi : Inv cfg (s.setPc i (.done (some .noContent))) := hs.move (.of_eq rfl rfl rfl) rfl rfl trivial rfl hs.held
  refine ⟨hi.pcs,?_,?_,hi.held⟩
  · intro old hold
    rcases mem_append.mp hold with hold|hold
    · exact hs.acked old hold
    · rw [mem_singleton.mp hold]
      exact hpc
  · intro old hold
    exact ⟨mem_append_left _ (hs.old old hold).1,(hs.old old hold).2⟩

lemma inv_failPersist (hs : Inv cfg s) (h : failPersist s i = some u) : Inv cfg u := by
 unfold failPersist at h
 split at h
 · rw [← some.inj h]
   exact hs.move (.of_eq rfl rfl rfl) rfl rfl trivial rfl hs.held
 · rw [← some.inj h]
   exact hs.move (.of_eq rfl rfl rfl) rfl rfl trivial rfl hs.held
 · cases h

lemma held_getSlotNewer (h : Held now w t.slots) (id : RelayId)
    (since : UInt64) : Held now w (t.getSlotNewer now id since).1.slots := by
 unfold Tables.getSlotNewer
 split
 · exact h
 · rename_i slot hs
   split
   · rename_i he
     intro hlt
     obtain ⟨e,hg,hv,hex⟩:=h hlt
     have hne : w.id ≠ id := by
      rintro rfl
      obtain rfl:=some.inj (hg.symm.trans hs)
      have hle:=of_decide_eq_true he
      omega
     refine ⟨e,?_,hv,hex⟩
     rw [get_erase,if_neg hne]
     exact hg
   · exact h

omit [DecidableEq ι] in
lemma inv_later (hs : Inv cfg s) (h : Later s u) (hp : u.pcs = s.pcs) (ha : u.acked = s.acked)
    (hc : ∀ w ∈ s.old, u.now < w.slot.expiresAt → u.now < w.expiry)
    (hh : ∀ w ∈ s.old, Held u.now w u.tables.slots) : Inv cfg u where
 pcs := by
  rw [hp]
  exact fun i=>h.pcOk (hs.pcs i)
 acked := by
  rw [ha]
  intro w hw
  obtain ⟨hb,hal⟩:=hs.acked w hw
  exact ⟨hb.trans (Nat.add_le_add_right h.now _),h.always w hal⟩
 old := by
  rw [h.old,ha]
  exact fun w hw=>⟨(hs.old w hw).1,hc w hw⟩
 held := by
  rw [h.old]
  exact hh

lemma nodup_stored (now : ℕ) (db : Map RelayId Bytes) : ((stored now db).map StoredRecord.key).Nodup := by
 have hk : (stored now db).map StoredRecord.key = (db.entries.map Prod.fst).map fun id : RelayId=>id.val := by
  rw [stored,List.map_map,List.map_map]
  rfl
 rw [hk]
 exact db.nodup_entries.map fun _ _ h=>Subtype.ext h

lemma load_dominates {kept : Map RelayId Bytes} (h : load now db = some (slots, kept)) (hw : Dominates now w db) :
    Held now w slots ∧ Dominates now w kept := by
 obtain ⟨scan,hs,heq⟩:=map_eq_some_iff.mp h
 obtain ⟨rfl,rfl⟩:=Prod.mk.inj heq
 have hok:=(openSlots_sound _ _).mp (toOption_eq_some.mp hs)
 obtain ⟨hh,ho⟩:=scan_of_foldlM [] (nodup_stored now db) nofun (fun _ hk=>absurd hk not_mem_nil) hok
 refine ⟨fun hlt=>?_,fun hlt=>?_⟩ <;>
  obtain ⟨raw,e,hg,hd,hv,he⟩:=hw hlt <;>
  have hf : e.expired now = false := decide_eq_false (by omega)
 · have hsl:=hh ⟨w.id.val,raw,now⟩ (mem_map_of_mem (get_eq_some.mp hg)) w.id e (parse_val w.id) hd
   rw [hf] at hsl
   exact ⟨e,hsl,hv,he⟩
 · refine ⟨raw,e,(get_foldl_erase (fun hm=>?_) db).trans hg,hd,hv,he⟩
   obtain ⟨key,hk,hp⟩:=mem_filterMap.mp hm
   obtain ⟨r,hr,rfl,slot,hs,hx⟩:=ho key hk
   obtain ⟨⟨id,raw'⟩,hm,rfl⟩:=mem_map.mp hr
   -- a key that was removed stood for an expired entry, and this one has not expired
   obtain rfl : w.id = id := Subtype.ext (val_of_parse hp)
   obtain rfl:=some.inj (hg.symm.trans (get_eq_some.mpr hm))
   obtain rfl:=Except.ok.inj (hd.symm.trans hs)
   exact absurd (hf.symm.trans hx) nofun

omit [DecidableEq ι] in
lemma inv_start {acked : List Write} (hb : ∀ w ∈ acked, w.slot.expiresAt ≤ now + cfg.slotTtl)
    (hdb : ∀ w ∈ acked, Dominates now w db) (hc : ∀ w ∈ acked, now < w.slot.expiresAt → now < w.expiry)
    (h : start now db acked = some u) : Inv cfg u := by
 obtain ⟨⟨slots,kept⟩,hl,rfl⟩:=map_eq_some_iff.mp h
 refine ⟨fun _=>trivial,?_,?_,?_⟩
 · intro w hw
   refine ⟨hb w hw,fun n=>?_⟩
   rw [view_of_le (Nat.zero_le n)]
   exact (load_dominates hl (hdb w hw)).2
 · exact fun w hw=>⟨hw,hc w hw⟩
 · exact fun w hw=>(load_dominates hl (hdb w hw)).1

lemma inv_step {a : Act ι} (hs : Inv cfg s) (hok : Orderly s a) (h : step cfg s a = some u) : Inv cfg u := by
 have hold : ∀ w ∈ s.old, s.now < w.slot.expiresAt → s.now < w.expiry := fun w hw=>(hs.old w hw).2
 cases a with
 | request i r => exact inv_request hs h
 | run i => exact inv_run hs hok h
 | fail i => exact inv_failPersist hs h
 | read id since =>
  rw [← some.inj h]
  exact inv_later hs (.of_eq rfl rfl rfl) rfl rfl hold
   fun w hw=>held_getSlotNewer (hs.held w hw) id since
 | background n =>
  rw [← some.inj h]
  refine inv_later hs ⟨le_refl _,rfl,?_,fun _ hw=>hw.persist n⟩ rfl rfl hold hs.held
  intro w hw
  rw [current_persist]
  exact hw
 | tick time =>
  rw [← some.inj h]
  refine inv_later hs ⟨hok.1,rfl,?_,?_⟩ rfl rfl hok.2 fun w hw=>(hs.held w hw).mono hok.1
  · exact fun w hw=>hw.mono hok.1
  · exact fun w hw n=>(hw n).mono hok.1
 | restart n =>
  exact inv_start (fun w hw=>(hs.acked w hw).1) (fun w hw=>(hs.acked w hw).2 n) hok h

end Invariant

/-- In an orderly run, every unexpired write acknowledged before the last restart is served, or a newer one is. -/
theorem acked_served (cfg : RelayConfig) (now : ℕ) (db : Map RelayId Bytes) (s₀ : Sys ι)
    (hstart : start now db [] = some s₀) (as : List (Act ι)) (s : Sys ι)
    (h : GuardedRuns (step cfg) Orderly s₀ as s) (w : Write) (hw : w ∈ s.old)
    (hlive : s.now < w.slot.expiresAt) :
    ∃ e, s.tables.served s.now w.id = some e ∧ w.slot.version ≤ e.version ∧
      ∀ since < e.version, (s.tables.getSlotNewer s.now w.id since).2 = some e := by
 have hi₀ : Inv cfg s₀ := inv_start (by simp) (by simp) (by simp) hstart
 have hi : Inv cfg s := h.invariant (Inv cfg) hi₀ fun _ _ _ hs hok hu=>inv_step hs hok hu
 obtain ⟨e,hg,hv,he⟩:=hi.held w hw ((hi.old w hw).2 hlive)
 have hlt:=(hi.old w hw).2 hlive
 have hf : e.expired s.now = false := decide_eq_false (by omega)
 have hse : s.tables.served s.now w.id = some e := by
  rw [Tables.served,hg,filter_some,hf]
  rfl
 refine ⟨e,hse,hv,fun since hsi=>?_⟩
 rw [getSlotNewer_eq,hse,filter_some,decide_eq_true hsi]
 rfl

section Plain

def plainWrite (version : String) : SlotRequest :=
  ⟨List.replicate 32 0x61, none, some (ascii version), ascii "v"⟩

def inTurn : List (Act Bool) :=
  [.request false (plainWrite "1"), .run false, .run false, .run false, .run false,
    .request true (plainWrite "2"), .run true, .run true, .run true, .run true,
    .tick (43200 * nanosPerSec), .restart 0]

def crossed : List (Act Bool) :=
  [.request false (plainWrite "1"), .request true (plainWrite "2"), .run false, .run true,
    .run true, .run true, .run true, .run false, .run false, .run false, .restart 0]

def outcome (s : Sys Bool) : List (UInt64 × Bool × Option UInt64) :=
  s.old.map fun w => (w.slot.version, decide (s.now < w.slot.expiresAt),
    (s.tables.served s.now w.id).map SlotEntry.version)

theorem acked_served_plain : ∃ s₀ s w, start 0 .empty [] = some s₀ ∧
    GuardedRuns (step plainConfig) Orderly s₀ inTurn s ∧ w ∈ s.old ∧ w.slot.version = 2 ∧
    s.now < w.slot.expiresAt ∧
    ∃ e, s.tables.served s.now w.id = some e ∧ w.slot.version ≤ e.version ∧
      ∀ since < e.version, (s.tables.getSlotNewer s.now w.id since).2 = some e := by
 have he : ((start 0 .empty []).bind fun s₀=>execIf (step plainConfig) Orderly s₀ inTurn).map
   outcome = some [(1,true,some 2),(2,true,some 2)] := by decide +kernel
 obtain ⟨s,hs,ho⟩:=map_eq_some_iff.mp he
 obtain ⟨s₀,hst,hr⟩:=bind_eq_some_iff.mp hs
 have hm : ((2 : UInt64),true,some (2 : UInt64)) ∈ outcome s := by
  rw [ho]
  decide
 obtain ⟨w,hw,heq⟩:=mem_map.mp hm
 obtain ⟨hv,hrest⟩:=Prod.mk.inj heq
 have hl:=of_decide_eq_true (Prod.mk.inj hrest).1
 have hg:=guardedRuns_of_execIf hr
 exact ⟨s₀,s,w,hst,hg,hw,hv,hl,acked_served plainConfig 0 .empty s₀ hst inTurn s hg w hw hl⟩

/-- Version 2 is acknowledged and has not expired; after the restart only version 1 is served. -/
theorem acked_lost : ∃ s₀ s w, start 0 .empty [] = some s₀ ∧
    Runs (step plainConfig) s₀ crossed s ∧ w ∈ s.old ∧ s.now < w.slot.expiresAt ∧
    ∃ e, s.tables.served s.now w.id = some e ∧ e.version < w.slot.version := by
 have hex : ((start 0 .empty []).bind fun s₀=>exec (step plainConfig) s₀ crossed).map
   outcome = some [(2,true,some 1),(1,true,some 1)] := by decide +kernel
 obtain ⟨s,hs,ho⟩:=map_eq_some_iff.mp hex
 obtain ⟨s₀,hst,hr⟩:=bind_eq_some_iff.mp hs
 have hm : ((2 : UInt64),true,some (1 : UInt64)) ∈ outcome s := by
  rw [ho]
  decide
 obtain ⟨w,hw,heq⟩:=mem_map.mp hm
 obtain ⟨hv,hrest⟩:=Prod.mk.inj heq
 obtain ⟨hl,hse⟩:=Prod.mk.inj hrest
 obtain ⟨e,he,hlow⟩:=map_eq_some_iff.mp hse
 refine ⟨s₀,s,w,hst,runs_of_exec hr,hw,of_decide_eq_true hl,e,he,?_⟩
 rw [hv,hlow]
 decide

end Plain

end Enlace.Relay
