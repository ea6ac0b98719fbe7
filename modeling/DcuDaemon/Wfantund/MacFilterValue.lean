/-
  The filter list that the NCP reports against the table that the commands keep: what a value of `n`
  addresses leaves in the rows and in their strings.

  The value is unpacked as one address, so its length becomes 8; the loop compares that with an index in
  words, reads the rows 0 to 4 whatever the value holds, and clears the others. The strings are printed
  from the words as they are, while a command turns the bytes of each word around.

  Main result: `filter_value_iff`.
-/
import DcuDaemon.Wfantund.ValueDecoders

namespace DcuDaemon.Wfantund

open Spinel (spinelMaxPackLength)
open Lib List

/-! ## 1. Addresses in a value -/

@[ext] structure MacOctets where
  b0 : UInt8
  b1 : UInt8
  b2 : UInt8
  b3 : UInt8
  b4 : UInt8
  b5 : UInt8
  b6 : UInt8
  b7 : UInt8
  deriving DecidableEq

namespace MacOctets

def bytes (a : MacOctets) : List UInt8 := [a.b0, a.b1, a.b2, a.b3, a.b4, a.b5, a.b6, a.b7]

/-- The row whose two integers are these bytes in memory. -/
def row (a : MacOctets) : MacRow := (leWord a.b0 a.b1 a.b2 a.b3, leWord a.b4 a.b5 a.b6 a.b7)

def zero : MacOctets := ⟨0, 0, 0, 0, 0, 0, 0, 0⟩

/-- Each of the two words reads the same both ways. -/
def Symmetric (a : MacOctets) : Prop := (a.b0 = a.b3 ∧ a.b1 = a.b2) ∧ a.b4 = a.b7 ∧ a.b5 = a.b6

instance (a : MacOctets) : Decidable a.Symmetric := inferInstanceAs (Decidable (_ ∧ _))

end MacOctets

def valueOf (addrs : List MacOctets) : List UInt8 := addrs.flatMap MacOctets.bytes

def rowsOf (addrs : List MacOctets) : List MacRow :=
  addrs.map MacOctets.row ++ replicate (macFilterListSize - addrs.length) (0, 0)

/-- The table has these addresses in its first rows, nothing in the others, and the strings that a
    command gives its rows. -/
def Reports (f : MacFilter) (addrs : List MacOctets) : Prop :=
  f.list.cells = rowsOf addrs ∧ f.strings.cells = (rowsOf addrs).map rowString

@[simp] theorem length_valueOf (addrs : List MacOctets) : (valueOf addrs).length = 8 * addrs.length := by
  induction addrs with
  | nil => rfl
  | cons a addrs ih =>
    rw [valueOf, flatMap_cons, length_append, ← valueOf, length_cons]
    change 8 + _ = _
    omega

theorem valueOf_append (addrs addrs' : List MacOctets) :
    valueOf (addrs ++ addrs') = valueOf addrs ++ valueOf addrs' := flatMap_append

theorem valueOf_zeros (n : Nat) : valueOf (replicate n MacOctets.zero) = replicate (8 * n) 0 := by
  induction n with
  | zero => rfl
  | succ n ih =>
    rw [replicate_succ, valueOf, flatMap_cons, ← valueOf, ih]
    change replicate 8 0 ++ _ = _
    rw [replicate_append_replicate]
    congr 1
    omega

variable {addrs chunks : List MacOctets} {n : Nat} {behind rest : List UInt8}

theorem valueOf_injective {addrs' : List MacOctets} (h : valueOf addrs = valueOf addrs') :
    addrs = addrs' := by
  induction addrs generalizing addrs' with
  | nil =>
    have hlen := congrArg length h
    rw [length_valueOf, length_valueOf, length_nil] at hlen
    exact (eq_nil_of_length_eq_zero (by omega)).symm
  | cons a addrs ih =>
    cases addrs' with
    | nil =>
      have hlen := congrArg length h
      simp at hlen
    | cons a' addrs' =>
      obtain ⟨ha, hrest⟩ := append_inj h rfl
      have haa : a = a' := by
        cases a
        cases a'
        simpa [MacOctets.bytes] using ha
      rw [haa, ih hrest]

theorem exists_valueOf (k : Nat) : ∀ {memory : List UInt8}, 8 * k ≤ memory.length →
      ∃ addrs rest, addrs.length = k ∧ memory = valueOf addrs ++ rest := by
  induction k with
  | zero =>
    intro memory _
    exact ⟨[], memory, rfl, rfl⟩
  | succ k ih =>
    intro memory h
    match memory, h with
    | b0 :: b1 :: b2 :: b3 :: b4 :: b5 :: b6 :: b7 :: memory, h =>
      have hmemory : 8 * k ≤ memory.length := by
        simp only [length_cons] at h
        omega
      obtain ⟨addrs, rest, hlen, hmem⟩ := ih hmemory
      refine ⟨⟨b0, b1, b2, b3, b4, b5, b6, b7⟩ :: addrs, rest, by rw [length_cons, hlen], ?_⟩
      rw [hmem]
      rfl

/-! ## 2. The two prints of a row -/

/-- The string of a row as the value's branch prints it. -/
def plainString (row : MacRow) : List Char := lowerHex 8 row.1.toNat ++ lowerHex 8 row.2.toNat

@[simp] theorem length_hexByte (b : UInt8) : (hexByte b).length = 2 := length_lowerHex 2 _

theorem hexByte_injective {b c : UInt8} (h : hexByte b = hexByte c) : b = c :=
  UInt8.toNat_inj.mp (lowerHex_injective b.toNat_lt c.toNat_lt h)

theorem leWord_toNat (b0 b1 b2 b3 : UInt8) : (leWord b0 b1 b2 b3).toNat =
    b0.toNat + 256 * (b1.toNat + 256 * (b2.toNat + 256 * b3.toNat)) := by
  have h0 := b0.toNat_lt
  have h1 := b1.toNat_lt
  have h2 := b2.toNat_lt
  have h3 := b3.toNat_lt
  have hsize : UInt32.size = 2 ^ 32 := rfl
  exact UInt32.toNat_ofNat_of_lt' (by omega)

theorem lowerHex_byte (w m : Nat) (b : UInt8) :
    lowerHex (w + 2) (b.toNat + 256 * m) = lowerHex w m ++ hexByte b := by
  have hb := b.toNat_lt
  have hhigh : (b.toNat + 256 * m) / 16 / 16 = m := by omega
  have hmid : (b.toNat + 256 * m) / 16 % 16 = b.toNat / 16 % 16 := by omega
  have hlow : (b.toNat + 256 * m) % 16 = b.toNat % 16 := by omega
  simp only [lowerHex, hexByte, hexFixed, hhigh, hmid, hlow, map_append, nil_append, append_assoc]

theorem lowerHex_leWord (b0 b1 b2 b3 : UInt8) : lowerHex 8 (leWord b0 b1 b2 b3).toNat =
    hexByte b3 ++ hexByte b2 ++ hexByte b1 ++ hexByte b0 := by
  have hlast : b3.toNat = b3.toNat + 256 * 0 := rfl
  rw [leWord_toNat, lowerHex_byte 6, lowerHex_byte 4, lowerHex_byte 2, hlast]
  rfl

theorem customRevstr_pairs {p q r s : List Char} (hp : p.length = 2) (hq : q.length = 2)
    (hr : r.length = 2) (hs : s.length = 2) : customRevstr (p ++ q ++ r ++ s) = s ++ r ++ q ++ p := by
  match p, hp, q, hq, r, hr, s, hs with
  | [_, _], _, [_, _], _, [_, _], _, [_, _], _ => exact customRevstr_eq ..

/-- A word is printed the same both ways exactly if its bytes read the same both ways. -/
theorem customRevstr_leWord_eq_iff (b0 b1 b2 b3 : UInt8) :
    lowerHex 8 (leWord b0 b1 b2 b3).toNat = customRevstr (lowerHex 8 (leWord b0 b1 b2 b3).toNat) ↔
      b0 = b3 ∧ b1 = b2 := by
  rw [lowerHex_leWord, customRevstr_pairs (length_hexByte _) (length_hexByte _) (length_hexByte _)
    (length_hexByte _)]
  constructor
  · intro h
    obtain ⟨h, h0⟩ := append_inj' h (by simp)
    obtain ⟨h, h1⟩ := append_inj' h (by simp)
    exact ⟨hexByte_injective h0, hexByte_injective h1⟩
  · intro ⟨h0, h1⟩
    rw [h0, h1]

/-- **The two prints of a row agree** exactly if its words read the same both ways. -/
theorem plainString_eq_iff (a : MacOctets) : plainString a.row = rowString a.row ↔ a.Symmetric := by
  have hsplit : plainString a.row = rowString a.row ↔
      lowerHex 8 a.row.1.toNat = customRevstr (lowerHex 8 a.row.1.toNat) ∧
        lowerHex 8 a.row.2.toNat = customRevstr (lowerHex 8 a.row.2.toNat) := by
    constructor
    · intro h
      exact append_inj h (by rw [length_customRevstr (length_lowerHex _ _), length_lowerHex])
    · intro ⟨h1, h2⟩
      rw [plainString, rowString, ← h1, ← h2]
  rw [hsplit]
  exact and_congr (customRevstr_leWord_eq_iff ..) (customRevstr_leWord_eq_iff ..)

theorem row_injective {a a' : MacOctets} (h : a.row = a'.row) : a = a' := by
  have hword : ∀ b0 b1 b2 b3 c0 c1 c2 c3 : UInt8, leWord b0 b1 b2 b3 = leWord c0 c1 c2 c3 →
      b0 = c0 ∧ b1 = c1 ∧ b2 = c2 ∧ b3 = c3 := by
    intro b0 b1 b2 b3 c0 c1 c2 c3 h
    have hprint := congrArg (fun w : UInt32 => lowerHex 8 w.toNat) h
    simp only [lowerHex_leWord] at hprint
    obtain ⟨hprint, h0⟩ := append_inj' hprint (by simp)
    obtain ⟨hprint, h1⟩ := append_inj' hprint (by simp)
    obtain ⟨h3, h2⟩ := append_inj' hprint (by simp)
    exact ⟨hexByte_injective h0, hexByte_injective h1, hexByte_injective h2, hexByte_injective h3⟩
  obtain ⟨hfirst, hsecond⟩ := Prod.mk.inj h
  obtain ⟨h0, h1, h2, h3⟩ := hword _ _ _ _ _ _ _ _ hfirst
  obtain ⟨h4, h5, h6, h7⟩ := hword _ _ _ _ _ _ _ _ hsecond
  exact MacOctets.ext h0 h1 h2 h3 h4 h5 h6 h7

/-! ## 3. The table after a value -/

theorem filterRowIs_at (a : MacOctets) {pre : List UInt8} (post : List UInt8) {k : Nat}
    (hpre : pre.length = 8 * k) (hk : k < 5) :
    filterRowIs (pre ++ a.bytes ++ post) (some 8) (2 * k) = some (a.row, plainString a.row) := by
  have hread : ∀ j b, a.bytes[j]? = some b →
      Entry.read (pre ++ a.bytes ++ post) (some 8) ((8 * k + j : Nat) : Int) = some b := by
    intro j b hb
    have hj : j < a.bytes.length := (List.getElem?_eq_some_iff.mp hb).1
    rw [Entry.read, Option.bind_some, if_pos (Int.natCast_nonneg _), Int.toNat_natCast,
      append_assoc, getElem?_append_right (by omega), hpre, Nat.add_sub_cancel_left,
      getElem?_append_left hj, hb]
  have hword : ∀ i j b0 b1 b2 b3, 4 * i = 8 * k + j → a.bytes[j]? = some b0 →
      a.bytes[j + 1]? = some b1 → a.bytes[j + 2]? = some b2 → a.bytes[j + 3]? = some b3 →
      Entry.readWord (pre ++ a.bytes ++ post) (some 8) i = some (leWord b0 b1 b2 b3) := by
    intro i j b0 b1 b2 b3 hi h0 h1 h2 h3
    have e0 : 4 * (i : Int) = ((8 * k + j : Nat) : Int) := by omega
    have e1 : 4 * (i : Int) + 1 = ((8 * k + (j + 1) : Nat) : Int) := by omega
    have e2 : 4 * (i : Int) + 2 = ((8 * k + (j + 2) : Nat) : Int) := by omega
    have e3 : 4 * (i : Int) + 3 = ((8 * k + (j + 3) : Nat) : Int) := by omega
    rw [Entry.readWord, e1, e2, e3, e0, hread _ _ h0, hread _ _ h1, hread _ _ h2, hread _ _ h3]
    rfl
  have hfirst := hword (2 * k) 0 _ _ _ _ (by omega) rfl rfl rfl rfl
  have hsecond := hword (2 * k + 1) 4 _ _ _ _ (by omega) rfl rfl rfl rfl
  unfold filterRowIs
  rw [if_neg (by simp only [Entry.len]; omega), hfirst, hsecond]
  rfl

theorem filterRowsIs_at (rest : List UInt8) :
    ∀ (pre : List UInt8) {k : Nat}, pre.length = 8 * k → k + addrs.length ≤ 5 →
      Forall₂ (fun x y => filterRowIs (pre ++ valueOf addrs ++ rest) (some 8) x = some y)
        (range' (2 * k) addrs.length 2) (addrs.map fun a => (a.row, plainString a.row)) := by
  induction addrs with
  | nil =>
    intro pre k _ _
    exact .nil
  | cons a addrs ih =>
    intro pre k hpre hk
    rw [length_cons] at hk
    have hsplit : pre ++ valueOf (a :: addrs) ++ rest = pre ++ a.bytes ++ (valueOf addrs ++ rest) := by
      simp [valueOf]
    have hsplit' : pre ++ valueOf (a :: addrs) ++ rest = (pre ++ a.bytes) ++ valueOf addrs ++ rest := by
      simp [valueOf]
    refine .cons ?_ ?_
    · rw [hsplit]
      exact filterRowIs_at a _ hpre (by omega)
    · rw [hsplit']
      exact ih (pre ++ a.bytes) (k := k + 1) (by
        rw [length_append]
        change _ + 8 = _
        omega) (by omega)

theorem filterRowIs_clear (memory : List UInt8) {x : Nat} (hx : 8 < x) :
    filterRowIs memory (some 8) x = some ((0, 0), emptyString) := by
  unfold filterRowIs
  rw [if_pos (by simp only [Entry.len]; omega)]
  rfl

theorem macFilterListIs_eq {memory : List UInt8} {rows : List (MacRow × List Char)}
    (h : (range' 0 macFilterListSize 2).mapM (filterRowIs memory (unpackEui64 n)) = some rows) :
    ∃ f, macFilterListIs memory n = some f ∧ f.list.cells = rows.map Prod.fst ∧
      f.strings.cells = rows.map Prod.snd := by
  unfold macFilterListIs
  split
  · next hnone =>
    rw [h] at hnone
    cases hnone
  · next rows' hsome =>
    rw [h] at hsome
    cases hsome
    exact ⟨_, rfl, rfl, rfl⟩

theorem forall₂_replicate {α β : Type} {R : α → β → Prop} {y : β} (xs : List α)
    (h : ∀ x ∈ xs, R x y) : Forall₂ R xs (replicate xs.length y) := by
  induction xs with
  | nil => exact .nil
  | cons x xs ih =>
    rw [forall_mem_cons] at h
    exact .cons h.1 (ih h.2)

/-- **The table after a value** of at least one address: the first forty bytes of the memory, and
    nothing else. -/
theorem macFilterListIs_chunks (hn : 8 ≤ n) (hmax : n ≤ spinelMaxPackLength)
     (hchunks : chunks.length = 5) (rest : List UInt8) :
    ∃ f, macFilterListIs (valueOf chunks ++ rest) n = some f ∧
      f.list.cells = (chunks ++ replicate 5 MacOctets.zero).map MacOctets.row ∧
      f.strings.cells = (chunks.map fun a => plainString a.row) ++ replicate 5 emptyString := by
  have hentry : unpackEui64 n = some 8 := if_pos ⟨hmax, hn⟩
  have hread : Forall₂ (fun x y => filterRowIs (valueOf chunks ++ rest) (some 8) x = some y)
      (range' 0 5 2) (chunks.map fun a => (a.row, plainString a.row)) := by
    rw [← hchunks]
    exact filterRowsIs_at rest [] (k := 0) rfl (by omega)
  have hclear : Forall₂ (fun x y => filterRowIs (valueOf chunks ++ rest) (some 8) x = some y)
      (range' 10 5 2) (replicate 5 ((0, 0), emptyString)) := by
    refine forall₂_replicate (range' 10 5 2) ?_
    intro x hx
    obtain ⟨i, _, rfl⟩ := mem_range'.mp hx
    exact filterRowIs_clear _ (by omega)
  have hall := mapM_eq_some_iff.mpr (rel_append hread hclear)
  rw [← hentry] at hall
  obtain ⟨f, hf, hlist, hstrings⟩ := macFilterListIs_eq hall
  refine ⟨f, hf, ?_, ?_⟩
  · rw [hlist, map_append, map_append, map_map]
    rfl
  · rw [hstrings, map_append, map_map]
    rfl

theorem macFilterListIs_empty (memory : List UInt8) :
    ∃ f, macFilterListIs memory 0 = some f ∧ Reports f [] := by
  have hclear : Forall₂ (fun x y => filterRowIs memory (unpackEui64 0) x = some y)
      (range' 0 macFilterListSize 2) (replicate 10 ((0, 0), emptyString)) := by
    refine forall₂_replicate (range' 0 macFilterListSize 2) ?_
    intro x _
    unfold filterRowIs
    rfl
  obtain ⟨f, hf, hlist, hstrings⟩ := macFilterListIs_eq (mapM_eq_some_iff.mpr hclear)
  refine ⟨f, hf, hlist, ?_⟩
  rw [hstrings]
  decide

/-! ## 4. The values that leave the table they report -/

theorem reports_iff {f : MacFilter}
    (hlist : f.list.cells = (chunks ++ replicate 5 MacOctets.zero).map MacOctets.row)
    (hstrings : f.strings.cells = (chunks.map fun a => plainString a.row) ++ replicate 5 emptyString) :
    Reports f addrs ↔
      chunks ++ replicate 5 MacOctets.zero =
        addrs ++ replicate (macFilterListSize - addrs.length) MacOctets.zero ∧
      ∀ a ∈ chunks, a.Symmetric := by
  have hrows : rowsOf addrs = (addrs ++
      replicate (macFilterListSize - addrs.length) MacOctets.zero).map MacOctets.row := by
    rw [map_append, map_replicate]
    rfl
  have hempty : rowString MacOctets.zero.row = emptyString := rowString_eq_empty.mpr rfl
  have hprinted : (f.list.cells.map rowString = f.strings.cells) ↔ ∀ a ∈ chunks, a.Symmetric := by
    rw [hlist, hstrings, map_append, map_append, map_replicate, map_replicate,
      hempty, append_left_inj, map_map, map_inj_left]
    exact forall₂_congr fun a _ => eq_comm.trans (plainString_eq_iff a)
  rw [Reports, ← hprinted, hrows]
  constructor
  · intro ⟨hcells, hprint⟩
    have hsame := hlist.symm.trans hcells
    exact ⟨map_injective_iff.mpr (fun _ _ => row_injective) hsame, by rw [hcells, hprint]⟩
  · intro ⟨hsame, hprint⟩
    rw [hsame] at hlist
    exact ⟨hlist, by rw [← hlist, hprint]⟩

/-- With at most five addresses the rest of the rows that are read comes from behind the value. -/
theorem chunks_iff_of_le (hlen : addrs.length ≤ 5) (hchunks : chunks.length = 5)
    (hmem : valueOf addrs ++ behind = valueOf chunks ++ rest) : (chunks ++ replicate 5 MacOctets.zero =
        addrs ++ replicate (macFilterListSize - addrs.length) MacOctets.zero ∧
      ∀ a ∈ chunks, a.Symmetric) ↔
    (∀ a ∈ addrs, a.Symmetric) ∧ replicate (40 - 8 * addrs.length) 0 <+: behind := by
  have hpad : addrs ++ replicate (macFilterListSize - addrs.length) MacOctets.zero =
      addrs ++ replicate (5 - addrs.length) MacOctets.zero ++ replicate 5 MacOctets.zero := by
    rw [append_assoc, replicate_append_replicate]
    congr 2
    change 10 - _ = _
    omega
  have hzeros : valueOf (replicate (5 - addrs.length) MacOctets.zero) =
      replicate (40 - 8 * addrs.length) 0 := by
    rw [valueOf_zeros]
    congr 1
    omega
  have hbehind : chunks = addrs ++ replicate (5 - addrs.length) MacOctets.zero ↔
      replicate (40 - 8 * addrs.length) 0 <+: behind := by
    constructor
    · intro h
      rw [h, valueOf_append, hzeros, append_assoc, append_right_inj] at hmem
      exact ⟨rest, hmem.symm⟩
    · intro ⟨tail, htail⟩
      rw [← htail, ← append_assoc, ← hzeros, ← valueOf_append] at hmem
      apply (valueOf_injective (append_inj_left hmem ?_)).symm
      simp only [length_valueOf, length_append, length_replicate, hchunks]
      omega
  rw [hpad, append_left_inj, ← hbehind]
  constructor
  · intro ⟨h, hsymmetric⟩
    refine ⟨?_, h⟩
    intro a ha
    exact hsymmetric a (by rw [h]; exact mem_append_left _ ha)
  · intro ⟨hsymmetric, h⟩
    refine ⟨h, ?_⟩
    intro a ha
    rw [h, mem_append] at ha
    rcases ha with ha | ha
    · exact hsymmetric a ha
    · rw [eq_of_mem_replicate ha]
      decide

/-- With more than five the value fills the rows that are read, and the others are cleared. -/
theorem chunks_iff_of_lt
    (hlt : 5 < addrs.length) (hle : addrs.length ≤ macFilterListSize) (hchunks : chunks.length = 5)
    (hmem : valueOf addrs ++ behind = valueOf chunks ++ rest) : (chunks ++ replicate 5 zero =
        addrs ++ replicate (macFilterListSize - addrs.length) zero ∧ ∀ a ∈ chunks, a.Symmetric) ↔
    (∀ a ∈ addrs.take 5, a.Symmetric) ∧ ∀ a ∈ addrs.drop 5, a = zero := by
  have htake : chunks = addrs.take 5 := by
    rw [← take_append_drop 5 addrs, valueOf_append, append_assoc] at hmem
    refine (valueOf_injective (append_inj_left hmem ?_)).symm
    rw [length_valueOf, length_valueOf, length_take, hchunks]
    omega
  have hrest : replicate 5 zero =
      addrs.drop 5 ++ replicate (macFilterListSize - addrs.length) zero ↔ ∀ a ∈ addrs.drop 5, a = zero := by
    rw [eq_comm, eq_replicate_iff]
    have hlength : (addrs.drop 5 ++ replicate (macFilterListSize - addrs.length) zero).length = 5 := by
      rw [length_append, length_drop, length_replicate]
      change addrs.length ≤ 10 at hle
      change _ + (10 - _) = 5
      omega
    rw [and_iff_right hlength, forall_mem_append]
    exact and_iff_left fun a ha => eq_of_mem_replicate ha
  have hsplit : addrs ++ replicate (macFilterListSize - addrs.length) zero =
      addrs.take 5 ++ (addrs.drop 5 ++ replicate (macFilterListSize - addrs.length) zero) := by
    rw [← append_assoc, take_append_drop]
  rw [hsplit, htake, append_right_inj, hrest, and_comm]

/-- **Which values leave the table they report**: none, or those whose addresses read the same both ways in
    the first five rows and are zero in the others, with zeros behind them up to the fifth row. -/
theorem filter_value_iff (addrs : List MacOctets) (hn : addrs.length ≤ macFilterListSize)
    (behind : List UInt8) :
    (∃ f, macFilterListIs (valueOf addrs ++ behind) (valueOf addrs).length = some f ∧ Reports f addrs) ↔
      addrs = [] ∨ (∀ a ∈ addrs.take 5, a.Symmetric) ∧ (∀ a ∈ addrs.drop 5, a = MacOctets.zero) ∧
          replicate (40 - 8 * addrs.length) 0 <+: behind := by
  by_cases hempty : addrs = []
  · rw [hempty]
    exact iff_of_true (macFilterListIs_empty _) (.inl rfl)
  have hpos : 0 < addrs.length := length_pos_iff.mpr hempty
  have hten : addrs.length ≤ 10 := hn
  rw [or_iff_right hempty, length_valueOf]
  by_cases hmem : 40 ≤ (valueOf addrs ++ behind).length
  · obtain ⟨chunks, rest, hchunks, hsplit⟩ := exists_valueOf 5 hmem
    have hmax : spinelMaxPackLength = 32767 := rfl
    obtain ⟨f, hf, hlist, hstrings⟩ :=
      macFilterListIs_chunks (n := 8 * addrs.length) (by omega) (by omega) hchunks rest
    have hreports : (∃ f, macFilterListIs (valueOf addrs ++ behind) (8 * addrs.length) = some f ∧
        Reports f addrs) ↔ Reports f addrs := by
      rw [hsplit, hf]
      simp
    rw [hreports, reports_iff hlist hstrings]
    by_cases hle : addrs.length ≤ 5
    · rw [chunks_iff_of_le hle hchunks hsplit, take_of_length_le hle, drop_eq_nil_of_le hle]
      simp
    · rw [chunks_iff_of_lt (by omega) hn hchunks hsplit]
      have hnothing : 40 - 8 * addrs.length = 0 := by omega
      rw [hnothing]
      simp
  · -- the fifth row is read outside the memory
    rw [length_append, length_valueOf] at hmem
    refine iff_of_false ?_ ?_
    · rintro ⟨f, hf, -⟩
      have hread := macFilterListIs_isSome_iff.mp (by rw [hf]; rfl) 8 (by decide)
      rw [filterRowIs_isSome, unpackEui64, if_pos ⟨by simp only [spinelMaxPackLength]; omega, by omega⟩]
        at hread
      simp only [Entry.len, length_append, length_valueOf] at hread
      omega
    · rintro ⟨-, -, hzeros⟩
      have hle := hzeros.length_le
      rw [length_replicate] at hle
      omega

/-- One address that reads the same both ways. -/
def macEven : MacOctets := ⟨1, 2, 2, 1, 3, 4, 4, 3⟩

theorem filter_value_even : [macEven].length ≤ macFilterListSize ∧
    ∃ f, macFilterListIs (valueOf [macEven] ++ replicate 32 0) (valueOf [macEven]).length = some f ∧
      Reports f [macEven] :=
  ⟨by decide, (filter_value_iff [macEven] (by decide) (replicate 32 0)).mpr
    (.inr ⟨by decide, by decide, by decide⟩)⟩

/-- `00:12:4b:00:14:f7:d2:e6`. -/
def macNode : MacOctets := ⟨0x00, 0x12, 0x4b, 0x00, 0x14, 0xf7, 0xd2, 0xe6⟩

/-- Of six addresses the sixth is lost; five are there, with strings that a command does not give
    them. -/
theorem filter_value_lost :
    (macFilterListIs (valueOf (replicate 6 macNode)) 48).map (fun f => f.list.cells[5]?) =
        some (some (0, 0)) ∧
      (rowsOf (replicate 6 macNode))[5]? = some macNode.row ∧ macNode.row ≠ (0, 0) ∧
    (macFilterListIs (valueOf (replicate 5 macNode)) 40).map (fun f => f.list.cells) =
        some (rowsOf (replicate 5 macNode)) ∧
      (macFilterListIs (valueOf (replicate 5 macNode)) 40).map (fun f => f.strings.cells[0]?) =
        some (some "004b1200e6d2f714".toList) ∧
      rowString macNode.row = "00124b0014f7d2e6".toList := by
  decide +kernel

end DcuDaemon.Wfantund
