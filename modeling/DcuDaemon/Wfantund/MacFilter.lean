/-
  The table of filtered MAC addresses (`NCPInstanceBase::convert_to_filter_list`) as a set of addresses.

  A row is two integers, and a string that is printed from them after each command. A free row is looked
  for among the strings, a row to remove among the integers. An address is added whether or not it is
  there already, and only one row is removed.

  Main result: `set_law_iff`.
-/
import DcuDaemon.Lib.Block
import DcuDaemon.Lib.Radix
import DcuDaemon.Lib.Run
import Mathlib.Data.List.Perm.Basic

namespace DcuDaemon.Wfantund

open Lib List Option

/-! ## 1. The table and its commands -/

def macFilterListSize : Nat := 10

/-- A row of `mMacFilterList`: two `int`s, as their bits. -/
abbrev MacRow := UInt32 × UInt32

/-- `mMacFilterList` by rows, and `mMacFilterListString`. -/
structure MacFilter where
  list : Block MacRow macFilterListSize
  strings : Block (List Char) macFilterListSize
  deriving DecidableEq

/-- `"0000000000000000"`. -/
def emptyString : List Char := List.replicate 16 '0'

def MacFilter.empty : MacFilter := ⟨Block.fill _ (0, 0), Block.fill _ emptyString⟩

/-- One round of `custom_revstr`: the pair at `i` and the one as far from the end. -/
def swapPairs (str : List Char) (i : Nat) : List Char :=
  let len := str.length
  let temp1 := str.getD i '\x00'
  let temp2 := str.getD (i + 1) '\x00'
  let str := str.set i (str.getD (len - i - 2) '\x00')
  let str := str.set (i + 1) (str.getD (len - i - 1) '\x00')
  let str := str.set (len - i - 1) temp2
  str.set (len - i - 2) temp1

/-- `custom_revstr`: `i` is 0, 2, .. below half the length. -/
def customRevstr (str : List Char) : List Char :=
  (List.range' 0 ((str.length / 2 + 1) / 2) 2).foldl swapPairs str

/-- A row of `mMacFilterListString` as it is written after a command. -/
def rowString (row : MacRow) : List Char :=
  customRevstr (lowerHex 8 row.1.toNat) ++ customRevstr (lowerHex 8 row.2.toNat)

/-- `std::string::substr`, which throws for a position behind the end. -/
def substr (value : List Char) (pos n : Nat) : Option (List Char) :=
  if value.length < pos then none else some ((value.drop pos).take n)

/-- `first_input_int` and `second_input_int`. -/
def inputRow (value : List Char) : Option MacRow := do
  let first ← substr value 3 8
  let second ← substr value 11 8
  some (UInt32.ofInt (strtolHex first), UInt32.ofInt (strtolHex second))

/-- A row of the scan for `num_empty` and `first_empty`. -/
def noteEmpty (strings : List (List Char)) (found : Nat × Nat) (x : Nat) : Nat × Nat :=
  if strings[x]? = some emptyString then (found.1 + 1, if x < found.2 then x else found.2)
  else found

/-- `num_empty` and `first_empty`. -/
def scanEmpty (strings : List (List Char)) : Nat × Nat :=
  (List.range macFilterListSize).foldl (noteEmpty strings) (0, 10)

/-- A row of the scan for `row_remove`. -/
def noteRow (list : List MacRow) (row : MacRow) (rowRemove x : Nat) : Nat :=
  if list[x]? = some row then x else rowRemove

/-- `row_remove`. -/
def scanRow (list : List MacRow) (row : MacRow) : Nat :=
  (List.range macFilterListSize).foldl (noteRow list row) 10

def addRow (f : MacFilter) (row : MacRow) : Option (Block MacRow macFilterListSize) :=
  let found := scanEmpty f.strings.cells
  if found.1 ≠ 0 then f.list.store found.2 row else some f.list

def removeRow (f : MacFilter) (row : MacRow) : Option (Block MacRow macFilterListSize) :=
  let rowRemove := scanRow f.list.cells row
  if rowRemove ≠ 10 then f.list.store rowRemove (0, 0) else some f.list

def printRows (list : Block MacRow macFilterListSize) : MacFilter :=
  ⟨list, list.cells.map rowString, by rw [List.length_map, list.length_cells]⟩

def convertToFilterList (value : List Char) (f : MacFilter) : Option MacFilter :=
  if value.take 3 = ['a', 'd', 'd'] then ((inputRow value).bind (addRow f)).map printRows
  else if value.take 3 = ['r', 'e', 'm'] then ((inputRow value).bind (removeRow f)).map printRows
  else some (printRows f.list)

/-! ## 2. Addresses -/

/-- The number that hexadecimal digits write. -/
def hexValue (digits : List Char) : Nat := (readDigits 16 0 digits).getD 0

/-- A MAC address as it is typed: sixteen hexadecimal digits that are not all zero. -/
structure MacAddress where
  digits : List Char
  length_digits : digits.length = 16
  hex : ∀ c ∈ digits, (toDigit 16 c).isSome = true
  nonzero : hexValue digits ≠ 0

/-- The two halves of the number. Addresses that are typed in different cases have one row. -/
def MacAddress.row (m : MacAddress) : MacRow :=
  (UInt32.ofNat (hexValue (m.digits.take 8)), UInt32.ofNat (hexValue (m.digits.drop 8)))

inductive FilterCommand where
  | add (m : MacAddress)
  | rem (m : MacAddress)

def FilterCommand.address : FilterCommand → MacAddress
  | .add m => m
  | .rem m => m

def FilterCommand.text : FilterCommand → List Char
  | .add m => ['a', 'd', 'd'] ++ m.digits
  | .rem m => ['r', 'e', 'm'] ++ m.digits

variable {digits s : List Char} {row : MacRow} {f : MacFilter} {held : List MacRow}

theorem readDigits_hexValue (h : ∀ c ∈ digits, (toDigit 16 c).isSome) :
    readDigits 16 0 digits = some (hexValue digits) := by
  obtain ⟨n, hn⟩ := exists_readDigits h 0
  rw [hexValue, hn]
  rfl

theorem ofInt_strtolHex (h : ∀ c ∈ digits, (toDigit 16 c).isSome) (hlen : digits.length = 8) :
    hexValue digits < 2 ^ 32 ∧ UInt32.ofInt (strtolHex digits) = UInt32.ofNat (hexValue digits) := by
  have hread := readDigits_hexValue h
  have hlt : hexValue digits < 2 ^ 32 := by
    have := lt_of_readDigits hread
    rw [hlen] at this
    exact this
  refine ⟨hlt, ?_⟩
  rw [strtolHex_digits h hread (hlt.trans (by decide))]
  apply UInt32.toNat_inj.mp
  simp [UInt32.ofInt]
  omega

namespace MacAddress

variable (m : MacAddress)

theorem halves : (m.digits.take 8).length = 8 ∧ (m.digits.drop 8).length = 8 ∧
    (∀ c ∈ m.digits.take 8, (toDigit 16 c).isSome) ∧ ∀ c ∈ m.digits.drop 8, (toDigit 16 c).isSome := by
  refine ⟨?_, ?_, ?_, ?_⟩
  · rw [length_take, m.length_digits]
    rfl
  · rw [length_drop, m.length_digits]
  · intro c hc
    exact m.hex c (mem_of_mem_take hc)
  · intro c hc
    exact m.hex c (mem_of_mem_drop hc)

theorem inputRow_text (a b c : Char) : inputRow ([a, b, c] ++ m.digits) = some m.row := by
  obtain ⟨htake, hdrop, hextake, hexdrop⟩ := m.halves
  have hfirst : substr ([a, b, c] ++ m.digits) 3 8 = some (m.digits.take 8) := by
    rfl
  have hsecond : substr ([a, b, c] ++ m.digits) 11 8 = some (m.digits.drop 8) := by
    rw [substr, if_neg (by simp [m.length_digits])]
    change some ((m.digits.drop 8).take 8) = _
    rw [take_of_length_le (le_of_eq hdrop)]
  simp only [inputRow, hfirst, hsecond, bind_eq_bind, bind_some, row,
    (ofInt_strtolHex hextake htake).2, (ofInt_strtolHex hexdrop hdrop).2]

theorem row_ne_zero : m.row ≠ (0, 0) := by
  obtain ⟨htake, hdrop, hextake, hexdrop⟩ := m.halves
  intro h
  have hzero : ∀ n : Nat, n < 2 ^ 32 → UInt32.ofNat n = 0 → n = 0 := by
    intro n hn h
    have := congrArg UInt32.toNat h
    rw [UInt32.toNat_ofNat_of_lt' hn] at this
    exact this
  have hfirst := hzero _ (ofInt_strtolHex hextake htake).1 (Prod.mk.inj h).1
  have hsecond := hzero _ (ofInt_strtolHex hexdrop hdrop).1 (Prod.mk.inj h).2
  apply m.nonzero
  rw [hexValue, ← take_append_drop 8 m.digits, readDigits_append, readDigits_hexValue hextake,
    hfirst, bind_some, readDigits_hexValue hexdrop, hsecond]
  rfl

end MacAddress

/-! ## 3. The strings -/

theorem customRevstr_eq (a b c d e f g h : Char) :
    customRevstr [a, b, c, d, e, f, g, h] = [g, h, e, f, c, d, a, b] := by
  simp [customRevstr, range', swapPairs]

theorem customRevstr_injective {t : List Char} (hs : s.length = 8) (ht : t.length = 8)
    (h : customRevstr s = customRevstr t) : s = t := by
  match s, hs, t, ht with
  | [_, _, _, _, _, _, _, _], _, [_, _, _, _, _, _, _, _], _ =>
    rw [customRevstr_eq, customRevstr_eq] at h
    simp_all

theorem length_customRevstr (hs : s.length = 8) : (customRevstr s).length = 8 := by
  match s, hs with
  | [_, _, _, _, _, _, _, _], _ => rw [customRevstr_eq]; rfl

theorem rowString_injective {row' : MacRow} (h : rowString row = rowString row') : row = row' := by
  have hlen : ∀ w : UInt32, (lowerHex 8 w.toNat).length = 8 := fun w => length_lowerHex 8 _
  obtain ⟨hfirst, hsecond⟩ := append_inj h
    (by rw [length_customRevstr (hlen _), length_customRevstr (hlen _)])
  have hword : ∀ w w' : UInt32,
      customRevstr (lowerHex 8 w.toNat) = customRevstr (lowerHex 8 w'.toNat) → w = w' := by
    intro w w' hw
    have hprint := customRevstr_injective (hlen w) (hlen w') hw
    exact UInt32.toNat_inj.mp (lowerHex_injective w.toNat_lt w'.toNat_lt hprint)
  exact Prod.ext (hword _ _ hfirst) (hword _ _ hsecond)

/-- **A string is the empty one exactly if the integers are zero.** -/
theorem rowString_eq_empty : rowString row = emptyString ↔ row = (0, 0) := by
  have hempty : rowString (0, 0) = emptyString := by decide
  constructor
  · intro h
    exact rowString_injective (h.trans hempty.symm)
  · intro h
    rw [h, hempty]

/-! ## 4. The scans -/

/-- The scan before row `n`: no empty string so far, or a row that has one. -/
def EmptyBefore (strings : List (List Char)) (n : Nat) (found : Nat × Nat) : Prop :=
  (found = (0, 10) ∧ ∀ x < n, strings[x]? ≠ some emptyString) ∨
    (found.1 ≠ 0 ∧ found.2 < n ∧ strings[found.2]? = some emptyString)

theorem emptyBefore_scanEmpty (strings : List (List Char)) :
    EmptyBefore strings macFilterListSize (scanEmpty strings) := by
  refine foldl_range (EmptyBefore strings) (.inl ⟨rfl, nofun⟩) ?_
  intro x hx found h
  have hx10 : x < 10 := hx
  unfold noteEmpty
  by_cases hempty : strings[x]? = some emptyString
  · right
    rw [if_pos hempty]
    rcases h with ⟨rfl, -⟩ | ⟨-, hlt, hfound⟩
    · rw [if_pos hx10]
      exact ⟨Nat.succ_ne_zero _, Nat.lt_succ_self x, hempty⟩
    · rw [if_neg (by omega)]
      exact ⟨Nat.succ_ne_zero _, Nat.lt_succ_of_lt hlt, hfound⟩
  · rw [if_neg hempty]
    exact h.imp (fun ⟨hfound, hnone⟩ => ⟨hfound, Nat.forall_lt_succ_right.mpr ⟨hnone, hempty⟩⟩)
      fun ⟨hne, hlt, hfound⟩ => ⟨hne, Nat.lt_succ_of_lt hlt, hfound⟩

/-- The scan before row `n`: no such row so far, or one of them. -/
def RowBefore (list : List MacRow) (row : MacRow) (n rowRemove : Nat) : Prop :=
  (rowRemove = 10 ∧ ∀ x < n, list[x]? ≠ some row) ∨ (rowRemove < n ∧ list[rowRemove]? = some row)

theorem rowBefore_scanRow (list : List MacRow) (row : MacRow) :
    RowBefore list row macFilterListSize (scanRow list row) := by
  refine foldl_range (RowBefore list row) (.inl ⟨rfl, nofun⟩) ?_
  intro x hx rowRemove h
  unfold noteRow
  by_cases hrow : list[x]? = some row
  · rw [if_pos hrow]
    exact .inr ⟨Nat.lt_succ_self x, hrow⟩
  · rw [if_neg hrow]
    exact h.imp (fun ⟨hfound, hnone⟩ => ⟨hfound, Nat.forall_lt_succ_right.mpr ⟨hnone, hrow⟩⟩)
      fun ⟨hlt, hfound⟩ => ⟨Nat.lt_succ_of_lt hlt, hfound⟩

theorem exists_row_of_mem {α : Type} {block : Block α macFilterListSize} {v : α}
    (h : v ∈ block.cells) : ∃ x < macFilterListSize, block.cells[x]? = some v := by
  obtain ⟨x, hx, hv⟩ := getElem_of_mem h
  exact ⟨x, hx.trans_eq block.length_cells, by rw [getElem?_eq_getElem hx, hv]⟩

/-! ## 5. The table as a bag -/

/-- What a command does to the addresses held, as often as they are held. -/
def keep (held : List MacRow) : FilterCommand → List MacRow
  | .add m => if held.length < macFilterListSize then m.row :: held else held
  | .rem m => held.erase m.row

/-- The strings are those of the integers, and the rows are the addresses of a bag and free ones. -/
structure Refines (f : MacFilter) (held : List MacRow) : Prop where
  printed : f.strings.cells = f.list.cells.map rowString
  nonzero : (0, 0) ∉ held
  rows : f.list.cells.Perm (held ++ replicate (macFilterListSize - held.length) (0, 0))

theorem refines_empty : Refines MacFilter.empty [] := ⟨by decide, not_mem_nil, .refl _⟩

/-- A row is replaced if there is one. -/
def Replaced (old new : MacRow) (block list : Block MacRow macFilterListSize) : Prop :=
  (old ∈ block.cells ∧ (old :: list.cells).Perm (new :: block.cells)) ∨ (old ∉ block.cells ∧ list = block)

theorem replaced_store {block : Block MacRow macFilterListSize} {x : Nat} {old : MacRow}
    (hx : block.cells[x]? = some old) (new : MacRow) :
    ∃ list, block.store x new = some list ∧ Replaced old new block list := by
  obtain ⟨hlt, rfl⟩ := List.getElem?_eq_some_iff.mp hx
  obtain ⟨list, hlist⟩ := isSome_iff_exists.mp
    (Block.store_isSome.mpr ⟨Int.natCast_nonneg _, Int.ofNat_lt.mpr (hlt.trans_eq block.length_cells)⟩)
  refine ⟨list, hlist, .inl ⟨getElem_mem hlt, ?_⟩⟩
  rw [(Block.store_eq_some.mp hlist).2, Int.toNat_natCast]
  exact ((set_perm_cons_eraseIdx hlt new).cons _).trans
    ((Perm.swap ..).trans ((getElem_cons_eraseIdx_perm hlt).cons new))

theorem addRow_spec (hprinted : f.strings.cells = f.list.cells.map rowString) (row : MacRow) :
    ∃ list, addRow f row = some list ∧ Replaced (0, 0) row f.list list := by
  have hzero : ∀ x : Nat, f.strings.cells[x]? = some emptyString ↔ f.list.cells[x]? = some (0, 0) := by
    intro x
    simp [hprinted, rowString_eq_empty]
  unfold addRow
  rcases emptyBefore_scanEmpty f.strings.cells with ⟨hfound, hnone⟩ | ⟨hne, -, hfound⟩
  · refine ⟨f.list, by rw [hfound]; rfl, .inr ⟨fun hmem => ?_, rfl⟩⟩
    obtain ⟨x, hx, hrow⟩ := exists_row_of_mem hmem
    exact hnone x hx ((hzero x).mpr hrow)
  · dsimp only
    rw [if_pos hne]
    exact replaced_store ((hzero _).mp hfound) row

theorem removeRow_spec (f : MacFilter) (row : MacRow) :
    ∃ list, removeRow f row = some list ∧ Replaced row (0, 0) f.list list := by
  unfold removeRow
  rcases rowBefore_scanRow f.list.cells row with ⟨hfound, hnone⟩ | ⟨hlt, hfound⟩
  · refine ⟨f.list, by rw [hfound]; rfl, .inr ⟨fun hmem => ?_, rfl⟩⟩
    obtain ⟨x, hx, hrow⟩ := exists_row_of_mem hmem
    exact hnone x hx hrow
  · dsimp only
    rw [if_pos (show scanRow f.list.cells row ≠ 10 from ne_of_lt hlt)]
    exact replaced_store hfound (0, 0)

/-! ## 6. The table as a set -/

def MacFilter.Present (f : MacFilter) (m : MacAddress) : Prop := m.row ∈ f.list.cells

def MacFilter.HasFree (f : MacFilter) : Prop := (0, 0) ∈ f.list.cells

/-- A set of addresses: one is there once added, unless there is no room, not there once removed, and others
    stay. -/
def SetLaw (f : MacFilter) (c : FilterCommand) (f' : MacFilter) : Prop :=
  (match c with
    | .add m => f.HasFree → f'.Present m
    | .rem m => ¬ f'.Present m) ∧
  ∀ a : MacAddress, a.row ≠ c.address.row → (f'.Present a ↔ f.Present a)

/-- Every command of a sequence does what it does to a set, each in the table the ones before it
    left. -/
def ObeysSetLaw : MacFilter → List FilterCommand → Prop
  | _, [] => True
  | f, c :: cs => ∃ f', convertToFilterList c.text f = some f' ∧ SetLaw f c f' ∧ ObeysSetLaw f' cs

/-- An address that is removed is held once at most. -/
def RemovesSingle (held : List MacRow) : FilterCommand → Prop
  | .add _ => True
  | .rem m => held.count m.row ≤ 1

theorem present_iff (h : Refines f held) (m : MacAddress) : f.Present m ↔ m.row ∈ held := by
  rw [MacFilter.Present, h.rows.mem_iff, mem_append, mem_replicate, or_iff_left fun hzero => m.row_ne_zero hzero.2]

theorem hasFree_iff (h : Refines f held) : f.HasFree ↔ held.length < macFilterListSize := by
  rw [MacFilter.HasFree, h.rows.mem_iff, mem_append, mem_replicate, or_iff_right h.nonzero,
    and_iff_left rfl, Nat.sub_ne_zero_iff_lt]

theorem refines_add (h : Refines f held) (m : MacAddress) {list : Block MacRow macFilterListSize}
    (hrow : Replaced (0, 0) m.row f.list list) : Refines (printRows list) (keep held (.add m)) := by
  rw [keep]
  rcases hrow with ⟨hfree, hperm⟩ | ⟨hfull, rfl⟩
  · have hlt := (hasFree_iff h).mp hfree
    rw [if_pos hlt]
    refine ⟨rfl, not_mem_cons_of_ne_of_not_mem m.row_ne_zero.symm h.nonzero, .cons_inv (a := (0, 0)) (hperm.trans ?_)⟩
    refine (h.rows.cons _).trans ?_
    rw [length_cons, show macFilterListSize - held.length = macFilterListSize - (held.length + 1) + 1 by omega]
    exact @perm_middle _ _ (m.row :: held) _
  · rw [if_neg fun hlt => hfull ((hasFree_iff h).mpr hlt)]
    exact ⟨rfl, h.nonzero, h.rows⟩

theorem refines_rem (h : Refines f held) (m : MacAddress) {list : Block MacRow macFilterListSize}
    (hrow : Replaced m.row (0, 0) f.list list) : Refines (printRows list) (keep held (.rem m)) := by
  have hpresent := present_iff h m
  rcases hrow with ⟨hmem, hperm⟩ | ⟨habsent, rfl⟩
  · have hheld := hpresent.mp hmem
    have hlen : held.length ≤ macFilterListSize := by
      have := h.rows.length_eq
      rw [f.list.length_cells, length_append, length_replicate] at this
      omega
    have hpos := length_pos_of_mem hheld
    refine ⟨rfl, fun hzero => h.nonzero (mem_of_mem_erase hzero), .cons_inv (a := m.row) (hperm.trans ?_)⟩
    refine ((h.rows.trans ((perm_cons_erase hheld).append_right _)).cons _).trans ((Perm.swap ..).trans (.cons _ ?_))
    rw [keep, length_erase_of_mem hheld,
      show macFilterListSize - (held.length - 1) = macFilterListSize - held.length + 1 by omega]
    exact perm_middle.symm
  · rw [keep, erase_of_not_mem (fun hheld => habsent (hpresent.mpr hheld))]
    exact ⟨rfl, h.nonzero, h.rows⟩

/-- **A command does to the rows what it does to a bag**, whatever the table holds. -/
theorem refines_step (h : Refines f held) (c : FilterCommand) :
    ∃ f', convertToFilterList c.text f = some f' ∧ Refines f' (keep held c) := by
  unfold convertToFilterList
  cases c with
  | add m =>
    obtain ⟨list, hlist, hrow⟩ := addRow_spec h.printed m.row
    refine ⟨printRows list, ?_, refines_add h m hrow⟩
    rw [if_pos (by rfl), FilterCommand.text, m.inputRow_text, bind_some, hlist, map_some]
  | rem m =>
    obtain ⟨list, hlist, hrow⟩ := removeRow_spec f m.row
    refine ⟨printRows list, ?_, refines_rem h m hrow⟩
    rw [if_neg (by simp [FilterCommand.text]), if_pos (by rfl), FilterCommand.text, m.inputRow_text,
      bind_some, hlist, map_some]

/-- It does to them what it does to a set exactly if the address it removes is held once at most. -/
theorem setLaw_iff {f' : MacFilter} {c : FilterCommand} (h : Refines f held)
    (h' : Refines f' (keep held c)) : SetLaw f c f' ↔ RemovesSingle held c := by
  have hothers : ∀ a : MacAddress, a.row ≠ c.address.row → (f'.Present a ↔ f.Present a) := by
    intro a ha
    rw [present_iff h, present_iff h']
    cases c with
    | add m =>
      rw [keep]
      split
      · exact mem_cons.trans (or_iff_right ha)
      · exact Iff.rfl
    | rem m => exact mem_erase_of_ne ha
  unfold SetLaw
  rw [and_iff_left hothers]
  cases c with
  | add m =>
    refine iff_of_true (fun hfree => ?_) trivial
    rw [present_iff h', keep, if_pos ((hasFree_iff h).mp hfree)]
    exact mem_cons_self
  | rem m =>
    change ¬ f'.Present m ↔ held.count m.row ≤ 1
    rw [present_iff h', keep, ← count_pos_iff, count_erase_self]
    omega

instance (held : List MacRow) : ∀ c, Decidable (RemovesSingle held c)
  | .add _ => isTrue trivial
  | .rem _ => inferInstanceAs (Decidable (_ ≤ _))

/-- Along a sequence of commands, from any table that holds the addresses of a bag. -/
theorem obeysSetLaw_iff {cs : List FilterCommand} :
    ∀ {f : MacFilter} {held : List MacRow}, Refines f held →
      (ObeysSetLaw f cs ↔ Along keep RemovesSingle held cs) := by
  induction cs with
  | nil =>
    intro f held _
    exact Iff.rfl
  | cons c cs ih =>
    intro f held h
    obtain ⟨f', hstep, h'⟩ := refines_step h c
    rw [Along, ← setLaw_iff h h', ← ih h']
    constructor
    · rintro ⟨g, hg, hlaw, hrest⟩
      rw [hstep] at hg
      cases hg
      exact ⟨hlaw, hrest⟩
    · rintro ⟨hlaw, hrest⟩
      exact ⟨f', hstep, hlaw, hrest⟩

/-- **When the table is a set**: exactly if no address is removed while it is held twice. -/
theorem set_law_iff (cs : List FilterCommand) :
    ObeysSetLaw MacFilter.empty cs ↔ Along keep RemovesSingle [] cs :=
  obeysSetLaw_iff refines_empty

/-- `00000000000000a1`. -/
def macA1 : MacAddress where
  digits := List.replicate 14 '0' ++ ['a', '1']
  length_digits := rfl
  hex := List.all_eq_true.mp (by decide)
  nonzero := by decide

/-- An address that was added twice is still there when it was removed. -/
theorem rem_leaves_address :
    ([FilterCommand.add macA1, .add macA1, .rem macA1].foldlM
      (fun f c => convertToFilterList c.text f) MacFilter.empty).map (·.list.cells) =
        some ((0, 0xa1) :: List.replicate 9 (0, 0)) ∧
    macA1.row = (0, 0xa1) ∧
    ¬ ObeysSetLaw MacFilter.empty [.add macA1, .add macA1, .rem macA1] := by
  refine ⟨by decide +kernel, by decide, ?_⟩
  rw [obeysSetLaw_iff refines_empty]
  decide

end DcuDaemon.Wfantund
