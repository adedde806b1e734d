import A20OS.Errno
import A20OS.Object

/-!
The native handle table (`kernel/abi/native/handle_table.c`).

A table is an array of entries with a bitmap of the slots in use, a hint where the search for a
free slot starts, a count and a quota. Every operation runs under the table lock and is one
function; one that fails may still have grown the table.

A slot not yet allocated reads as a zeroed entry, so growth is invisible through `Table.entry`.
`Table.WF` relates the entries to the bitmap and the count, and three moves generate all changes
(`WF.occupy`, `WF.vacate`, `WF.put`).
-/

namespace A20OS.Handle

open Lib
open List hiding map

/-! ### Entries -/

/-- `a20_handle_state_t`. A slot reserved for a receive is `closing`. -/
inductive HandleState where
  | free | active | expired | closing
deriving DecidableEq, Repr

abbrev TemporalFlags := BitVec 32

def expiryAbsolute : TemporalFlags := 1 <<< 0
def opCount : TemporalFlags := 1 <<< 1
def autoClose : TemporalFlags := 1 <<< 2

/-- The temporal limits and the label of a handle; all zero is no limit. -/
structure Limits where
  expiryTick : Nat := 0
  remainingOps : Nat := 0
  temporalFlags : TemporalFlags := 0
  securityLabel : Nat := 0
deriving DecidableEq

/-- `a20_handle_entry_t`; object 0 is the null pointer. -/
structure Entry extends Limits where
  object : Nat
  type : ObjType
  rights : Rights
  state : HandleState
deriving DecidableEq

/-- A zeroed entry. -/
def Entry.zero : Entry := { object := 0, type := .invalid, rights := 0, state := .free }

/-- `a20_ch_handle_info_t`: the description of a handle that travels in a message. -/
structure HandleInfo extends Limits where
  object : Nat
  type : ObjType
  transferRights : Rights
deriving DecidableEq

/-- `A20_CH_MAX_HANDLES`. -/
def maxChannelHandles : Nat := 8

/-- The handle can be used only a limited number of times. -/
def Limits.opLimited (l : Limits) : Bool := l.temporalFlags &&& opCount ≠ 0

def effectiveRights (now : Nat) (e : Entry) : Rights :=
  if 0 < e.expiryTick ∧ e.expiryTick ≤ now then 0
  else if e.opLimited ∧ e.remainingOps = 0 then 0
  else e.rights

open Rights in
/-- `a20_type_rights`. -/
def typeValidRights : ObjType → Rights
  | .invalid => 0
  | .task => wait ||| signal ||| stat ||| dup ||| transfer ||| Rights.control ||| admin |||
      Rights.read ||| write
  | .thread => wait ||| signal ||| stat ||| dup ||| transfer ||| Rights.control ||| admin |||
      Rights.read ||| write
  | .file => Rights.read ||| write ||| stat ||| seek ||| dup ||| transfer ||| Rights.exec |||
      map ||| Rights.control
  | .directory => Rights.read ||| stat ||| dup ||| transfer ||| Rights.control
  | .socket => Rights.read ||| write ||| stat ||| dup ||| transfer ||| connect ||| accept |||
      Rights.control
  | .pipeEndpoint => Rights.read ||| write ||| stat ||| dup ||| transfer
  | .channelEndpoint => Rights.read ||| write ||| stat ||| dup ||| transfer
  | .eventQueue => Rights.read ||| stat ||| dup ||| transfer ||| Rights.control
  | .timer => stat ||| dup ||| transfer ||| Rights.control
  | .memory => Rights.read ||| write ||| Rights.exec ||| map ||| stat ||| dup ||| transfer |||
      Rights.control
  | .device => Rights.read ||| write ||| map ||| stat ||| seek ||| dup ||| transfer |||
      Rights.control
  | .ns => stat ||| dup ||| transfer ||| Rights.control ||| admin
  | .debug =>
      Rights.read ||| write ||| wait ||| signal ||| stat ||| dup ||| transfer |||
      Rights.control ||| admin
  | .extProg => Rights.read ||| dup ||| transfer ||| Rights.control
  | .pager => Rights.read ||| write ||| stat ||| dup ||| transfer ||| Rights.control
  | .vmar => map ||| stat ||| dup ||| transfer ||| Rights.control
  | .monitor => Rights.read ||| stat ||| dup ||| transfer ||| Rights.control

/-- The masking every install starts with. -/
def maskRights (type : ObjType) (rights : Rights) : Rights :=
  if rights &&& ~~~typeValidRights type ≠ 0 then rights &&& typeValidRights type else rights

theorem maskRights_within (type : ObjType) (rights : Rights) :
    (maskRights type rights).Within rights := by
  unfold maskRights
  split
  · exact Rights.and_within_left _ _
  · exact Rights.within_refl _

/-! ### Tables -/

/-- `A20_HT_INITIAL_CAP`. -/
def initialCap : Nat := 256

/-- `A20_HT_MAX_CAP`. -/
def maxCap : Nat := 65536

/-- `A20_HT_DEFAULT_QUOTA`. -/
def defaultQuota : Nat := 4096

/-- `A20_HT_GROWTH_FACTOR`. -/
def growthFactor : Nat := 2

/-- `struct a20_ht_internal`. -/
structure Table where
  entries : List Entry
  count : Nat
  freeHint : Nat
  freeBitmap : List (BitVec 64)
  securityLabel : Nat
  maxHandles : Nat
deriving DecidableEq

variable {e : Entry} {h slot : Nat} {t : Table}

namespace Table

abbrev capacity (t : Table) : Nat := t.entries.length

/-- The entry of a handle value. -/
def entry (t : Table) (h : Nat) : Entry := t.entries.getD h Entry.zero

/-- `ht->entries[h] = e`. -/
def put (t : Table) (h : Nat) (e : Entry) : Table := { t with entries := t.entries.set h e }

@[simp] theorem capacity_put : (t.put h e).capacity = t.capacity := length_set

theorem entry_put (hslot : slot < t.capacity) (e : Entry) (h : Nat) :
    (t.put slot e).entry h = if h = slot then e else t.entry h := by
  unfold entry put
  rw [getD_eq_getElem?_getD, getElem?_set]
  by_cases same : slot = h
  · rw [if_pos same, if_pos hslot, if_pos same.symm, Option.getD_some]
  · rw [if_neg same, if_neg (Ne.symm same), getD_eq_getElem?_getD]

theorem entry_of_capacity_le (past : t.capacity ≤ h) : t.entry h = Entry.zero := by
  unfold entry
  rw [getD_eq_getElem?_getD, getElem?_eq_none past]
  rfl

theorem getElem_entries (hh : h < t.entries.length) : t.entries[h] = t.entry h := by
  unfold entry
  rw [getD_eq_getElem?_getD, getElem?_eq_getElem hh]
  rfl

/-! ### The representation invariant -/

/-- The slot is in use. -/
def Used (e : Entry) : Bool := e.state ≠ .free

/-- An entry owns an object exactly while it is active or expired. -/
def Owns (e : Entry) : Prop := e.object ≠ 0 ↔ e.state = .active ∨ e.state = .expired

/-- The bitmap marks the slots in use, the count is their number, and an entry owns
an object exactly while it is open. -/
structure WF (t : Table) : Prop where
  words : t.freeBitmap.length * 64 = t.capacity
  marked : ∀ h < t.capacity, testBit t.freeBitmap h = Used (t.entry h)
  counted : t.count = t.entries.countP Used
  owns : ∀ h, Owns (t.entry h)

theorem WF.word_lt (wf : t.WF) (hh : h < t.capacity) : h / 64 < t.freeBitmap.length := by
  have words := wf.words
  omega

theorem countP_put (hslot : slot < t.capacity) (e : Entry) (p : Entry → Bool) :
    (t.put slot e).entries.countP p =
      (t.entries.countP p - if p (t.entry slot) then 1 else 0) + if p e then 1 else 0 := by
  rw [put, countP_set hslot, getElem_entries]

theorem countP_pos (hslot : slot < t.capacity) {p : Entry → Bool}
    (hp : p (t.entry slot) = true) : 0 < t.entries.countP p := by
  rw [countP_pos_iff]
  exact ⟨t.entry slot, getElem_entries hslot ▸ getElem_mem hslot, hp⟩

/-- An entry is written, with the bit of its slot and the count. -/
theorem WF.write (wf : t.WF) (hslot : slot < t.capacity) (owns : Owns e)
    {freeBitmap : List (BitVec 64)} {count : Nat} (freeHint : Nat)
    (words : freeBitmap.length = t.freeBitmap.length)
    (marks : ∀ h, testBit freeBitmap h = if h = slot then Used e else testBit t.freeBitmap h)
    (counted : count = (t.put slot e).entries.countP Used) :
    WF { t.put slot e with freeBitmap, freeHint, count } := by
  refine ⟨?_, ?_, counted, ?_⟩
  · rw [capacity_put, words]
    exact wf.words
  · intro h hh
    rw [capacity_put] at hh
    change testBit freeBitmap h = Used ((t.put slot e).entry h)
    rw [marks, entry_put hslot]
    split
    · rfl
    · exact wf.marked h hh
  · intro h
    change Owns ((t.put slot e).entry h)
    rw [entry_put hslot]
    split
    · exact owns
    · exact wf.owns h

/-- Rewriting an entry in place, into one that is in use if and only if it was. -/
theorem WF.put (wf : t.WF) (hslot : slot < t.capacity)
    (used : Used e = Used (t.entry slot)) (owns : Owns e) : (t.put slot e).WF := by
  refine wf.write hslot owns t.freeHint rfl (fun h => ?_) ?_
  · split
    · next same => rw [same, used, wf.marked slot hslot]
    · rfl
  · rw [countP_put hslot, used, wf.counted]
    split
    · next hu => exact (Nat.sub_add_cancel (countP_pos hslot hu)).symm
    · rfl

/-- A free slot is given an entry: its bit is set and the count goes up. -/
def occupy (t : Table) (slot : Nat) (e : Entry) (hint : Nat) : Table :=
  { t.put slot e with
    freeBitmap := setBit t.freeBitmap slot, freeHint := hint, count := t.count + 1 }

/-- A slot in use is given up: its bit is cleared and the count goes down. -/
def vacate (t : Table) (slot : Nat) (e : Entry) (hint : Nat) : Table :=
  { t.put slot e with
    freeBitmap := clearBit t.freeBitmap slot, freeHint := hint, count := t.count - 1 }

@[simp] theorem entry_occupy (hint : Nat) :
    (t.occupy slot e hint).entry = (t.put slot e).entry := rfl

@[simp] theorem entry_vacate (hint : Nat) :
    (t.vacate slot e hint).entry = (t.put slot e).entry := rfl

theorem WF.occupy (wf : t.WF) (hslot : slot < t.capacity) (free : Used (t.entry slot) = false)
    (used : Used e = true) (owns : Owns e) (hint : Nat) : (t.occupy slot e hint).WF := by
  refine wf.write hslot owns hint length_setBit (fun h => ?_) ?_
  · rw [testBit_setBit (wf.word_lt hslot), used]
    by_cases same : h = slot <;> simp [same]
  · rw [countP_put hslot, free, used, wf.counted]
    rfl

theorem WF.vacate (wf : t.WF) (hslot : slot < t.capacity) (used : Used (t.entry slot) = true)
    (free : Used e = false) (owns : Owns e) (hint : Nat) : (t.vacate slot e hint).WF := by
  refine wf.write hslot owns hint length_clearBit (fun h => ?_) ?_
  · rw [testBit_clearBit (wf.word_lt hslot), free]
    by_cases same : h = slot <;> simp [same]
  · rw [countP_put hslot, free, used, wf.counted]
    rfl

/-- `a20_ht_create`. -/
def create : Table where
  entries := replicate initialCap Entry.zero
  count := 0
  freeHint := 0
  freeBitmap := replicate ((initialCap + 63) / 64) 0
  securityLabel := 0
  maxHandles := defaultQuota

theorem entry_create (h : Nat) : create.entry h = Entry.zero := by
  unfold entry create
  rw [getD_eq_getElem?_getD, getElem?_replicate]
  split <;> rfl

theorem create_wf : Table.create.WF := by
  refine ⟨?_, ?_, ?_, ?_⟩
  · change (replicate _ _).length * 64 = (replicate _ _).length
    rw [length_replicate, length_replicate]
    rfl
  · intro h _
    rw [entry_create]
    change testBit (replicate ((initialCap + 63) / 64) 0) h = false
    rw [← nil_append (replicate _ _), testBit_append_zeros]
    simp [testBit]
  · change 0 = (replicate initialCap Entry.zero).countP Used
    rw [countP_replicate]
    rfl
  · intro h
    rw [entry_create]
    simp [Owns, Entry.zero]

end Table

end A20OS.Handle
