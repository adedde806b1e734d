import Mathlib.Data.List.Basic
import Mathlib.Tactic.Ring

/-!
Little-endian numbers in byte strings.

`leBytes n v` are the `n` low bytes of `v`, and `leValue` reads such a string back; they are
inverse (`leValue_leBytes`, `leBytes_leValue`). `loadLE` and `storeLE` are accesses at an offset.
`pack` and `unpack` write and read a header, a list of fields of given widths, and are inverse.
-/

namespace A20OS.Lib

open List

/-- One byte of a buffer. -/
abbrev Byte := BitVec 8

/-- The number a little-endian byte string denotes. -/
def leValue : List Byte → Nat
  | [] => 0
  | b :: bs => b.toNat + 256 * leValue bs

/-- The `n` low bytes of `v`, least significant first. -/
def leBytes : Nat → Nat → List Byte
  | 0, _ => []
  | n + 1, v => BitVec.ofNat 8 v :: leBytes n (v / 256)

@[simp] theorem length_leBytes (n v : Nat) : (leBytes n v).length = n := by
  induction n generalizing v with
  | zero => rfl
  | succ n ih => simp [leBytes, ih]

theorem leValue_leBytes (n v : Nat) : leValue (leBytes n v) = v % 256 ^ n := by
  induction n generalizing v with
  | zero => simp [leBytes, leValue, Nat.mod_one]
  | succ n ih =>
    simp only [leBytes, leValue, ih, BitVec.toNat_ofNat]
    rw [show 256 ^ (n + 1) = 256 * 256 ^ n by ring, Nat.mod_mul]

theorem leValue_leBytes_of_lt {n v : Nat} (hv : v < 256 ^ n) : leValue (leBytes n v) = v := by
  rw [leValue_leBytes, Nat.mod_eq_of_lt hv]

theorem leValue_lt (bs : List Byte) : leValue bs < 256 ^ bs.length := by
  induction bs with
  | nil => simp [leValue]
  | cons b bs ih =>
    simp only [leValue, length_cons, Nat.pow_succ]
    omega

theorem leBytes_leValue (bs : List Byte) : leBytes bs.length (leValue bs) = bs := by
  induction bs with
  | nil => rfl
  | cons b bs ih =>
    have low : BitVec.ofNat 8 (b.toNat + 256 * leValue bs) = b := by
      apply BitVec.eq_of_toNat_eq
      simp only [BitVec.toNat_ofNat]
      omega
    have high : (b.toNat + 256 * leValue bs) / 256 = leValue bs := by omega
    simp only [length_cons, leBytes, leValue, low, high, ih]

/-! ### Accesses at an offset -/

/-- The `n`-byte little-endian number at `off`. -/
def loadLE (n : Nat) (buf : List Byte) (off : Nat) : Nat := leValue ((buf.drop off).take n)

/-- Overwrite the `n` bytes at `off` with the low bytes of `v`. -/
def storeLE (n : Nat) (buf : List Byte) (off v : Nat) : List Byte :=
  buf.take off ++ leBytes n v ++ buf.drop (off + n)

variable {buf : List Byte}

theorem length_storeLE {n off : Nat} (h : off + n ≤ buf.length) (v : Nat) :
    (storeLE n buf off v).length = buf.length := by
  simp only [storeLE, length_append, length_take, length_leBytes, length_drop]
  omega

theorem loadLE_lt {n off : Nat} : loadLE n buf off < 256 ^ n := by
  have hlen : ((buf.drop off).take n).length ≤ n := length_take_le n _
  exact lt_of_lt_of_le (leValue_lt _) (Nat.pow_le_pow_right (by decide) hlen)

/-- Writing back what was read gives the bytes it was read from. -/
theorem leBytes_loadLE {n off : Nat} (inside : off + n ≤ buf.length) :
    leBytes n (loadLE n buf off) = (buf.drop off).take n := by
  have hlen : ((buf.drop off).take n).length = n := by
    rw [length_take, length_drop]
    omega
  have := leBytes_leValue ((buf.drop off).take n)
  rwa [hlen] at this

/-! ### Layouts

A layout is the list of the widths of consecutive fields. -/

/-- The fields one after the other, each in its width. -/
def pack : List Nat → List Nat → List Byte
  | w :: ws, v :: vs => leBytes w v ++ pack ws vs
  | _, _ => []

/-- Read consecutive fields from `off` on. -/
def unpack (buf : List Byte) : List Nat → Nat → List Nat
  | [], _ => []
  | w :: ws, off => loadLE w buf off :: unpack buf ws (off + w)

/-- Every value fits the width of its field, and there are as many values as fields. -/
def Fits : List Nat → List Nat → Prop
  | [], [] => True
  | w :: ws, v :: vs => v < 256 ^ w ∧ Fits ws vs
  | _, _ => False

theorem length_pack {ws vs : List Nat} (fits : Fits ws vs) : (pack ws vs).length = ws.sum := by
  induction ws generalizing vs with
  | nil => simp [pack]
  | cons w ws ih =>
    cases vs with
    | nil => exact fits.elim
    | cons v vs => simp [pack, ih fits.2]

/-- Reading back what was packed, wherever it stands in a buffer. -/
theorem unpack_pack {ws vs : List Nat} (fits : Fits ws vs) (before after : List Byte) :
    unpack (before ++ (pack ws vs ++ after)) ws before.length = vs := by
  induction ws generalizing vs before with
  | nil =>
    cases vs with
    | nil => rfl
    | cons v vs => exact fits.elim
  | cons w ws ih =>
    cases vs with
    | nil => exact fits.elim
    | cons v vs =>
      have field : loadLE w (before ++ (leBytes w v ++ (pack ws vs ++ after))) before.length
          = v := by
        rw [loadLE, drop_left, take_left' (length_leBytes w v)]
        exact leValue_leBytes_of_lt fits.1
      have rest := ih fits.2 (before ++ leBytes w v)
      rw [length_append, length_leBytes, append_assoc] at rest
      simp only [pack, unpack, append_assoc, field, rest]

/-- Packing what was read gives the bytes it was read from. -/
theorem pack_unpack (buf : List Byte) (ws : List Nat) (off : Nat)
    (inside : off + ws.sum ≤ buf.length) :
    pack ws (unpack buf ws off) = (buf.drop off).take ws.sum := by
  induction ws generalizing off with
  | nil => simp [pack]
  | cons w ws ih =>
    rw [sum_cons] at inside ⊢
    rw [unpack, pack, leBytes_loadLE (by omega), ih (off + w) (by omega), take_add, drop_drop]

end A20OS.Lib
