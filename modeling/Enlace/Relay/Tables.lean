import Enlace.Lib.ByteString
import Enlace.Lib.Fallible
import Enlace.Lib.Table

set_option autoImplicit false

/-! The tables of the relay (`enlace-relay`): mailbox queues and slots, under their ids. A time is
the number of nanoseconds since the Unix epoch. -/
namespace Enlace.Relay
open ByteString Fallible Table List

def nanosPerSec : ℕ := 1000000000

def maxTime : ℕ := 2^63 * nanosPerSec

structure RelayConfig where
  auth : Option Bytes
  maxBodyBytes : ℕ
  mailboxCapacity : ℕ
  capacity_pos : 0 < mailboxCapacity
  mailboxTtl : ℕ
  slotTtl : ℕ

def plainConfig : RelayConfig := ⟨none, 65536, 128, by decide, 3600 * nanosPerSec, 86400 * nanosPerSec⟩

def RelayId.isHex (b : UInt8) : Bool := (0x30 ≤ b && b ≤ 0x39) || (0x61 ≤ b && b ≤ 0x66)

def RelayId : Type := { raw : Bytes // (raw.length == 32 && raw.all RelayId.isHex) = true }

instance : DecidableEq RelayId := inferInstanceAs (DecidableEq (Subtype _))

def RelayId.parse (raw : Bytes) : Option RelayId :=
  if h : (raw.length == 32 && raw.all RelayId.isHex) = true then some ⟨raw, h⟩ else none

structure MailboxEntry where
  body : Bytes
  expiresAt : ℕ
  deriving DecidableEq

def MailboxEntry.expired (now : ℕ) (entry : MailboxEntry) : Bool := decide (entry.expiresAt ≤ now)

structure SlotEntry where
  version : UInt64
  body : Bytes
  expiresAt : ℕ
  inRange : expiresAt < maxTime

def SlotEntry.expired (now : ℕ) (slot : SlotEntry) : Bool := decide (slot.expiresAt ≤ now)

structure Tables where
  mailboxes : Map RelayId (List MailboxEntry)
  slots : Map RelayId SlotEntry

namespace Tables

variable (cfg : RelayConfig) (now : ℕ) (t : Tables)

def pushMailbox (id : RelayId) (body : Bytes) : Tables :=
  let queue := (t.mailboxes.get id).getD []
  let room := queue.drop (queue.length + 1 - cfg.mailboxCapacity)
  { t with mailboxes := t.mailboxes.insert id (room ++ [⟨body, now + cfg.mailboxTtl⟩]) trivial }

def popMailbox (id : RelayId) : Tables × Option Bytes :=
  match t.mailboxes.get id with
  | none => (t, none)
  | some queue =>
    let rest := queue.dropWhile (MailboxEntry.expired now)
    let left := rest.tail
    ({ t with mailboxes := if left.isEmpty then t.mailboxes.erase id
        else t.mailboxes.insert id left trivial }, rest.head?.map MailboxEntry.body)

def putSlot (id : RelayId) (slot : SlotEntry) : Option Tables :=
  if (t.slots.get id).any fun current => !current.expired now && decide (slot.version ≤ current.version)
  then none else some { t with slots := t.slots.insert id slot trivial }

def getSlotNewer (id : RelayId) (since : UInt64) : Tables × Option SlotEntry :=
  match t.slots.get id with
  | none => (t, none)
  | some slot =>
    if slot.expired now then ({ t with slots := t.slots.erase id }, none)
    else (t, if since < slot.version then some slot else none)

/-- The unexpired slot, as a reader with a small enough `since` gets it. -/
def served (id : RelayId) : Option SlotEntry := (t.slots.get id).filter fun slot => !slot.expired now

end Tables

lemma getSlotNewer_eq (t : Tables) (now : ℕ) (id : RelayId) (since : UInt64) :
    (t.getSlotNewer now id since).2 = (t.served now id).filter fun e => decide (since < e.version) := by
 unfold Tables.getSlotNewer Tables.served
 cases t.slots.get id with
 | none => rfl
 | some slot =>
  cases hx : slot.expired now with
  | true | false => simp [hx,Option.filter]

def unixSecs (time : ℕ) : ℕ := time / nanosPerSec

def wholeSecs (time : ℕ) : ℕ := unixSecs time * nanosPerSec

lemma wholeSecs_le (time : ℕ) : wholeSecs time ≤ time := Nat.div_mul_le_self _ _

def encodeSlot (slot : SlotEntry) : Bytes :=
  be64 slot.version ++ be64 (UInt64.ofNat (unixSecs slot.expiresAt)) ++ slot.body

/-- A value that is too short is skipped; a time that cannot be held aborts. -/
def decodeSlot (raw : Bytes) : Res Unit SlotEntry := do
  ensure (16 ≤ raw.length) ()
  let expiresAt := (ofBe64 ((raw.drop 8).take 8)).toNat * nanosPerSec
  if h : expiresAt < maxTime then
    return ⟨ofBe64 (raw.take 8), raw.drop 16, expiresAt, h⟩
  else .error .abort

lemma toNat_unixSecs (slot : SlotEntry) :
    (UInt64.ofNat (unixSecs slot.expiresAt)).toNat = unixSecs slot.expiresAt := by
 have hlt : unixSecs slot.expiresAt < 2^63 := by
  have h:=slot.inRange
  rw [maxTime,← Nat.div_lt_iff_lt_mul (by decide)] at h
  exact h
 exact UInt64.toNat_ofNat_of_lt' (hlt.trans (by decide))

lemma decodeSlot_encodeSlot (slot : SlotEntry) : decodeSlot (encodeSlot slot) =
    .ok ⟨slot.version, slot.body, wholeSecs slot.expiresAt, (wholeSecs_le _).trans_lt slot.inRange⟩ := by
 have hv : (be64 slot.version).length = 8 := be64_length _
 have he : (be64 (UInt64.ofNat (unixSecs slot.expiresAt))).length = 8 := be64_length _
 have ht : (encodeSlot slot).take 8 = be64 slot.version := by
  rw [encodeSlot,append_assoc,take_left' hv]
 have hd : (encodeSlot slot).drop 8 = be64 (UInt64.ofNat (unixSecs slot.expiresAt)) ++ slot.body := by
  rw [encodeSlot,append_assoc,drop_left' hv]
 have hb : (encodeSlot slot).drop 16 = slot.body := by
  rw [← drop_drop (i := 8) (j := 8),hd,drop_left' he]
 have hl : 16 ≤ (encodeSlot slot).length := by
  rw [encodeSlot,length_append,length_append]
  omega
 have hti : (ofBe64 (((encodeSlot slot).drop 8).take 8)).toNat * nanosPerSec = wholeSecs slot.expiresAt := by
  rw [hd,take_left' he,ofBe64_be64,toNat_unixSecs,wholeSecs]
 simp only [decodeSlot,decide_eq_true hl,ensure_true,ok_bind,ht,hb,ofBe64_be64,hti,
  (wholeSecs_le _).trans_lt slot.inRange,dif_pos]
 rfl

/-! Opening the slot database of a relay: which stored values `open` gets past, and what it makes
of the others. -/

/-- An entry of the database, with the clock as `open` reads it for that entry. -/
structure StoredRecord where
  key : Bytes
  value : Bytes
  now : ℕ

inductive OpenError where
  | openingStore
  | readingSlot
  | removingSlot
  | flushingStore
  deriving DecidableEq

def OpenError.context : OpenError → String
  | .openingStore => "opening slot store"
  | .readingSlot => "reading persisted slot"
  | .removingSlot => "removing expired persisted slot"
  | .flushingStore => "flushing slot store"

/-- What the database answers; an entry that cannot be read is `none`. -/
structure Disk where
  opens : Bool
  items : List (Option StoredRecord)
  removes : Bytes → Bool
  flushes : Bool

structure Scan where
  slots : Map RelayId SlotEntry
  expired : List Bytes

def Scan.visit (acc : Scan) (r : StoredRecord) : Res OpenError Scan :=
  match RelayId.parse r.key with
  | none => .ok acc
  | some id => match decodeSlot r.value with
    | .ok slot => .ok (if slot.expired r.now then { acc with expired := acc.expired ++ [r.key] }
        else { acc with slots := acc.slots.insert id slot trivial })
    | .error (.error _) => .ok acc
    | .error .abort => .error .abort

def Scan.item (acc : Scan) (item : Option StoredRecord) : Res OpenError Scan := do
  acc.visit (← okOr .readingSlot item)

/-- `PersistentSlots::open`: the slots to serve, and the keys removed as expired. -/
def openSlots (disk : Disk) : Res OpenError Scan := do
  ensure disk.opens .openingStore
  let scan ← disk.items.foldlM Scan.item ⟨.empty, []⟩
  scan.expired.forM fun key => ensure (disk.removes key) .removingSlot
  ensure disk.flushes .flushingStore
  return scan

def Disk.sound (records : List StoredRecord) : Disk := ⟨true, records.map some, fun _ => true, true⟩

/-- The expiry in the value, if there is one, is a time that a `SystemTime` can hold. -/
def Holdable (raw : Bytes) : Prop := 16 ≤ raw.length → (ofBe64 ((raw.drop 8).take 8)).toNat < 2^63

instance decidableHoldable (raw : Bytes) : Decidable (Holdable raw) :=
  inferInstanceAs (Decidable (16 ≤ raw.length → (ofBe64 ((raw.drop 8).take 8)).toNat < 2^63))

lemma noAbort_decodeSlot_iff (raw : Bytes) : NoAbort (decodeSlot raw) ↔ Holdable raw := by
 unfold decodeSlot
 by_cases hl : 16 ≤ raw.length
 · rw [decide_eq_true hl,ensure_true]
   have hm : (ofBe64 ((raw.drop 8).take 8)).toNat * nanosPerSec < maxTime ↔
     (ofBe64 ((raw.drop 8).take 8)).toNat < 2^63 := Nat.mul_lt_mul_right (by decide)
   dsimp only
   split
   · rename_i h
     exact iff_of_true (noAbort_ok _) fun _=>hm.mp h
   · rename_i h
     exact iff_of_false (fun hno=>hno rfl) fun hh=>h (hm.mpr (hh hl))
 · rw [decide_eq_false hl]
   exact iff_of_true (noAbort_fail ()) fun h=>absurd h hl

lemma val_of_parse {raw : Bytes} {id : RelayId} (h : RelayId.parse raw = some id) : id.val = raw := by
 unfold RelayId.parse at h
 split at h
 · rw [← Option.some.inj h]
 · cases h

lemma parse_val (id : RelayId) : RelayId.parse id.val = some id := dif_pos id.property

/-- What `open` owes to a record: its slot is served, or removed if it has expired. -/
def Scan.Has (scan : Scan) (r : StoredRecord) : Prop :=
  ∀ id slot, RelayId.parse r.key = some id → decodeSlot r.value = .ok slot →
    if slot.expired r.now then r.key ∈ scan.expired else scan.slots.get id = some slot

def Scan.RemovesOnly (scan : Scan) (records : List StoredRecord) : Prop :=
  ∀ key ∈ scan.expired, ∃ r ∈ records, r.key = key ∧ ∃ slot, decodeSlot r.value = .ok slot ∧ slot.expired r.now = true

/-- One record leaves the slots of all other ids alone and is itself entered. -/
structure Visited (acc out : Scan) (r : StoredRecord) : Prop where
  has : out.Has r
  frame : ∀ id : RelayId, id.val ≠ r.key → out.slots.get id = acc.slots.get id
  grows : ∀ key ∈ acc.expired, key ∈ out.expired
  removed : ∀ key ∈ out.expired, key ∈ acc.expired ∨
    (r.key = key ∧ ∃ slot, decodeSlot r.value = .ok slot ∧ slot.expired r.now = true)

lemma visited_of_visit {acc out : Scan} {r : StoredRecord} (h : acc.visit r = .ok out) : Visited acc out r := by
 unfold Scan.visit at h
 split at h
 · rename_i hp
   cases h
   exact ⟨fun id _ hid=>absurd (hp.symm.trans hid) nofun,fun _ _=>rfl,fun _ h=>h,fun _=>.inl⟩
 · rename_i id hp
   split at h
   · rename_i slot hs
     cases h
     cases he : slot.expired r.now with
     | true =>
      refine ⟨fun id' slot' _ hs' => ?_,fun _ _=>rfl,fun _=>mem_append_left _,fun key hk=>?_⟩
      · obtain rfl:=Except.ok.inj (hs.symm.trans hs')
        rw [if_pos he]
        exact mem_append_right _ mem_cons_self
      · rcases mem_append.mp hk with hk|hk
        · exact .inl hk
        · exact .inr ⟨(mem_singleton.mp hk).symm,slot,hs,he⟩
     | false =>
      refine ⟨fun id' slot' hi' hs' => ?_,fun id' hne=>?_,fun _ h=>h,fun _=>.inl⟩
      · obtain rfl:=Except.ok.inj (hs.symm.trans hs')
        obtain rfl:=Option.some.inj (hp.symm.trans hi')
        rw [he]
        exact (Keyed.get_insert _ _ _ _ trivial).trans (if_pos rfl)
      · have hid : id' ≠ id := fun heq=>hne (heq ▸ val_of_parse hp)
        exact (Keyed.get_insert _ _ _ _ trivial).trans (if_neg hid)
   · rename_i e hs
     cases h
     exact ⟨fun _ _ _ hok=>absurd (hs.symm.trans hok) nofun,fun _ _=>rfl,fun _ h=>h,fun _=>.inl⟩
   · cases h

lemma noAbort_visit_iff (acc : Scan) (r : StoredRecord) :
    (∃ out, acc.visit r = .ok out) ↔ ((RelayId.parse r.key).isSome = true → Holdable r.value) := by
 unfold Scan.visit
 rw [← noAbort_decodeSlot_iff]
 cases RelayId.parse r.key with
 | none => exact iff_of_true ⟨_,rfl⟩ nofun
 | some id =>
  match decodeSlot r.value with
  | .ok slot => exact iff_of_true ⟨_,rfl⟩ fun _=>noAbort_ok slot
  | .error (.error e) => exact iff_of_true ⟨_,rfl⟩ fun _=>noAbort_fail e
  | .error .abort => exact iff_of_false nofun fun h=>h rfl rfl

lemma Scan.Has.frame {acc out : Scan} {r r' : StoredRecord} (h : acc.Has r) (hv : Visited acc out r')
    (hne : r.key ≠ r'.key) : out.Has r := by
 intro id slot hid hs
 have hh:=h id slot hid hs
 split
 · rename_i he
   rw [if_pos he] at hh
   exact hv.grows _ hh
 · rename_i he
   rw [if_neg he] at hh
   rw [hv.frame id fun heq=>hne ((val_of_parse hid).symm.trans heq),hh]

/-- The loop over all records, by induction on those visited so far. -/
theorem scan_of_foldlM (visited : List StoredRecord) {rest : List StoredRecord} {acc out : Scan}
    (hn : ((visited ++ rest).map StoredRecord.key).Nodup) (hh : ∀ r ∈ visited, acc.Has r)
    (ho : acc.RemovesOnly visited) (h : (rest.map some).foldlM Scan.item acc = .ok out) :
    (∀ r ∈ visited ++ rest, out.Has r) ∧ out.RemovesOnly (visited ++ rest) := by
 induction rest generalizing visited acc with
 | nil =>
  cases h
  rw [append_nil]
  exact ⟨hh,ho⟩
 | cons r rest ih =>
  rw [map_cons,foldlM_cons,bind_eq_ok] at h
  obtain ⟨mid,hm,h⟩:=h
  have hv:=visited_of_visit hm
  have ha : visited ++ r :: rest = (visited ++ [r]) ++ rest := by simp
  rw [ha] at hn ⊢
  refine ih _ hn ?_ ?_ h
  · intro r' hr'
    rcases mem_append.mp hr' with hr'|hr'
    · refine (hh r' hr').frame hv fun heq=>?_
      rw [append_assoc,map_append,nodup_append] at hn
      exact hn.2.2 _ (mem_map_of_mem hr') _ (mem_map_of_mem mem_cons_self) heq
    · rw [mem_singleton.mp hr']
      exact hv.has
  · intro key hk
    rcases hv.removed key hk with hk|hk
    · obtain ⟨r',hr',hrest⟩:=ho key hk
      exact ⟨r',mem_append_left _ hr',hrest⟩
    · exact ⟨r,mem_append_right _ mem_cons_self,hk⟩

lemma foldlM_item_ok_iff (records : List StoredRecord) (acc : Scan) :
    (∃ out, (records.map some).foldlM Scan.item acc = .ok out) ↔
      ∀ r ∈ records, (RelayId.parse r.key).isSome = true → Holdable r.value := by
 induction records generalizing acc with
 | nil => exact iff_of_true ⟨acc,rfl⟩ nofun
 | cons r records ih =>
  rw [forall_mem_cons,← noAbort_visit_iff acc r]
  constructor
  · rintro ⟨out,h⟩
    rw [map_cons,foldlM_cons,bind_eq_ok] at h
    obtain ⟨mid,hm,h⟩:=h
    exact ⟨⟨mid,hm⟩,(ih mid).mp ⟨out,h⟩⟩
  · rintro ⟨⟨mid,hm⟩,hrest⟩
    obtain ⟨out,h⟩:=(ih mid).mpr hrest
    refine ⟨out,?_⟩
    rw [map_cons,foldlM_cons,bind_eq_ok]
    exact ⟨mid,hm,h⟩

lemma openSlots_sound (records : List StoredRecord) (scan : Scan) :
    openSlots (.sound records) = .ok scan ↔ (records.map some).foldlM Scan.item ⟨.empty, []⟩ = .ok scan := by
 have hr : ∀ keys : List Bytes, (keys.forM fun key=>
   ensure ((Disk.sound records).removes key) OpenError.removingSlot) = .ok ⟨⟩ := by
  intro keys
  induction keys with
  | nil => rfl
  | cons key keys ih => exact ih
 unfold openSlots
 simp only [bind_eq_ok,ensure_eq_ok,pure_eq_ok]
 constructor
 · rintro ⟨_,_,scan',h,_,_,_,_,rfl⟩
   exact h
 · exact fun h=>⟨(),rfl,scan,h,_,hr _,(),rfl,rfl⟩

/-- Opening a database succeeds, with every record served or removed as expired, exactly if the expiry in the value of
every id can be held; and what was encoded is read back with its expiry cut to whole seconds. -/
theorem persisted_slots_load_iff (records : List StoredRecord) (hnodup : (records.map StoredRecord.key).Nodup) :
    (∀ raw, NoAbort (decodeSlot raw) ↔ Holdable raw) ∧
    ((∃ scan, openSlots (.sound records) = .ok scan ∧ (∀ r ∈ records, scan.Has r) ∧ scan.RemovesOnly records) ↔
      ∀ r ∈ records, (RelayId.parse r.key).isSome = true → Holdable r.value) ∧
    ∀ slot : SlotEntry, ∃ read, decodeSlot (encodeSlot slot) = .ok read ∧ read.version = slot.version ∧
      read.body = slot.body ∧ read.expiresAt = slot.expiresAt / nanosPerSec * nanosPerSec := by
 refine ⟨noAbort_decodeSlot_iff,?_,fun slot=>⟨_,decodeSlot_encodeSlot slot,rfl,rfl,rfl⟩⟩
 rw [← foldlM_item_ok_iff records ⟨.empty,[]⟩]
 constructor
 · rintro ⟨scan,h,_⟩
   exact ⟨scan,(openSlots_sound records scan).mp h⟩
 · rintro ⟨scan,h⟩
   exact ⟨scan,(openSlots_sound records scan).mpr h,
    scan_of_foldlM [] hnodup nofun (fun _ hk=>absurd hk not_mem_nil) h⟩

section Plain

def storedUnder (letter : UInt8) (expiry : UInt64) : StoredRecord :=
  ⟨List.replicate 32 letter, be64 1 ++ be64 expiry ++ ascii "v", 0⟩

theorem persisted_slots_load_greatest :
    let records := [storedUnder 0x61 60,storedUnder 0x62 (2^63 - 1)]
    (records.map StoredRecord.key).Nodup ∧
    ∃ scan, openSlots (.sound records) = .ok scan ∧ (∀ r ∈ records, scan.Has r) ∧ scan.RemovesOnly records := by
 have hn : ([storedUnder 0x61 60,storedUnder 0x62 (2^63 - 1)].map StoredRecord.key).Nodup := by
  decide +kernel
 have hh : ∀ r ∈ [storedUnder 0x61 60,storedUnder 0x62 (2^63 - 1)],
   (RelayId.parse r.key).isSome = true → Holdable r.value := by
  decide +kernel
 exact ⟨hn,(persisted_slots_load_iff _ hn).2.1.mpr hh⟩

theorem persisted_expiry_aborts : decodeSlot (storedUnder 0x62 (2^63)).value = .error .abort ∧
    openSlots (.sound [storedUnder 0x61 60, storedUnder 0x62 (2^63)]) = .error .abort ∧
    ((toOption (openSlots (.sound [storedUnder 0x61 60]))).bind fun scan =>
      (RelayId.parse (storedUnder 0x61 60).key).bind fun id =>
        (scan.slots.get id).map SlotEntry.version) = some 1 :=
 ⟨eq_abort_of_not (by decide +kernel),eq_abort_of_not (by decide +kernel),by decide +kernel⟩

end Plain

end Enlace.Relay
