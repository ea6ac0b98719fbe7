/-
  Iterators over packed data (`src/ncp-spinel/spinel-extra.c`).

  An iterator has a pointer into the data, the length that is left and the rest of the pack format.
  `spinel_datatype_iter_next` steps over one value, `spinel_datatype_iter_open_container` makes an iterator
  for a struct. A string is stepped over with the zero byte behind it, whether there is one or not. The
  loop that looks for the end of a struct stays at one character, so it ends at once or never.

  Main result: `iter_safe_iff`.
-/
import DcuDaemon.Spinel.Datatype

namespace DcuDaemon.Spinel.Iteration

open List Option

/-! ## 1. The iterator -/

/-- The data of a run. Its length is an `int` in the iterator. -/
structure Buffer where
  bytes : List UInt8
  fits : bytes.length < 2 ^ 31

/-- `spinel_datatype_iter_t`; the pointer is the distance from the first byte. -/
structure Iter where
  dataPtr : Int
  dataLen : Int
  packFormat : List Char
  container : Char
  deriving DecidableEq

inductive Status where
  | ok
  | empty
  | parseError
  | unimplemented
  deriving DecidableEq

/-- The loop of `spinel_next_packed_datatype` behind an opening parenthesis. -/
def skipParens : Nat → List Char → List Char
  | _, [] => []
  | depth, '(' :: fmt => skipParens (depth + 1) fmt
  | depth, ')' :: fmt => if depth ≤ 1 then fmt else skipParens (depth - 1) fmt
  | depth, _ :: fmt => skipParens depth fmt

def nextPackedDatatype : List Char → List Char
  | [] => []
  | _ :: '(' :: fmt => skipParens 1 fmt
  | _ :: fmt => fmt

variable (b : Buffer)

/-- `spinel_datatype_iter_start`, which leaves the container as it is. -/
def Buffer.start (packFormat : List Char) (container : Char) : Iter :=
  ⟨0, b.bytes.length, packFormat, container⟩

/-- What is left of the data. -/
def Iter.rest (it : Iter) : List UInt8 := (b.bytes.drop it.dataPtr.toNat).take it.dataLen.toNat

/-- `spinel_datatype_unpack` of a length and a block: the length of both, if it is positive. -/
def blockLen : List UInt8 → Option Nat
  | low :: high :: rest =>
    let n := low.toNat + 256 * high.toNat
    if rest.length + 2 ≤ 32767 ∧ n < 1300 ∧ n ≤ rest.length then some (n + 2) else none
  | _ => none

/-- How far `spinel_datatype_iter_next` moves; `none` where it bails out. A fixed size is a `size_t`, and so is
    `data_len` where it is compared with one. -/
def typeSize (it : Iter) : Option Int :=
  let fixed (n : Int) := if n ≤ it.dataLen % 0x10000000000000000 then some n else none
  let block := ((blockLen (it.rest b)).map Nat.cast).filter fun n => n < 1300 ∧ n ≤ it.dataLen
  match it.packFormat with
  | 'c' :: _ | 'C' :: _ => fixed 1
  | 's' :: _ | 'S' :: _ => fixed 2
  | 'l' :: _ | 'L' :: _ => fixed 4
  | '6' :: _ => fixed 16
  | 'E' :: _ => fixed 8
  | 'e' :: _ => fixed 6
  | 'i' :: _ => (Datatype.packedUintDecode (it.rest b) 0 0).map fun x => ((it.rest b).length - x.2.length : Nat)
  | 'U' :: _ => some (((it.rest b).takeWhile (· ≠ 0)).length + 1)
  | 'A' :: fmt | 'D' :: fmt => if fmt.head? = some ')' then some it.dataLen else block
  | 't' :: _ | 'd' :: _ => block
  | _ => none

/-- An `int`. -/
def int32 (x : Int) : Int := (x + 0x80000000) % 0x100000000 - 0x80000000

/-- `spinel_datatype_iter_next`. -/
def Iter.next (it : Iter) : Status × Iter :=
  if it.dataLen = 0 then (.empty, it)
  else match typeSize b it with
  | none => (.parseError, it)
  | some n =>
    let fmt := (nextPackedDatatype it.packFormat).dropWhile (· = '.')
    let dataLen := int32 (it.dataLen - n)
    (if fmt.head? = some ')' ∨ fmt = [] ∨ dataLen = 0 then .empty else .ok,
      ⟨it.dataPtr + n, dataLen, if it.container = 'A' then it.packFormat else fmt, it.container⟩)

/-- The loop of `spinel_datatype_iter_open_container` over `depth`, with so many rounds at most; it always
    looks at the same character. -/
def depthLoop (c : Option Char) : Nat → Nat → Option Unit
  | 0, _ => none
  | rounds + 1, depth =>
    let depth := if c = some '(' ∨ c = some ')' then depth + 1 else if c = none then 0 else depth
    if depth > 0 then depthLoop c rounds depth else some ()

/-- `spinel_datatype_iter_open_container`: the status, and the new iterator where it was written. `none`
    stands for a loop that is not left after so many rounds. -/
def Iter.openContainer (rounds : Nat) (it : Iter) : Option (Status × Option Iter) :=
  if it.dataLen ≤ 2 then some (.parseError, none)
  else match it.packFormat with
  | 'A' :: _ => some (.unimplemented, none)
  | 't' :: '(' :: fmt =>
    (depthLoop fmt[1]? rounds 0).map fun _ =>
      if fmt[1]? = some ')' then
        match blockLen (it.rest b) with
        | some n => (.ok, some ⟨it.dataPtr + 2, n - 2, fmt.drop 2, 't'⟩)
        | none => (.parseError, some ⟨it.dataPtr, it.dataLen, fmt.drop 2, 't'⟩)
      else (.parseError, some ⟨it.dataPtr, it.dataLen, fmt, 't'⟩)
  | 't' :: _ => some (.parseError, some it)
  | _ => some (.parseError, none)

/-! ## 2. Runs -/

inductive Call where
  | next (i : Nat)
  | openContainer (i : Nat)

/-- The iterators after a call; opening a container adds one. -/
def step (rounds : Nat) (its : List Iter) : Call → Option (List Iter)
  | .next i => some (its.modify i fun it => (it.next b).2)
  | .openContainer i =>
    match its[i]? with
    | none => some its
    | some it => (it.openContainer b rounds).map fun x => its ++ x.2.toList

structure Iter.Inside (b : Buffer) (it : Iter) : Prop where
  ptr : 0 ≤ it.dataPtr
  len : 0 ≤ it.dataLen
  sum : it.dataPtr + it.dataLen ≤ b.bytes.length

/-- Every call returns, and leaves all iterators inside the data. -/
def Safe : List Iter → List Call → Prop
  | _, [] => True
  | its, call :: calls =>
    ∃ rounds its', step b rounds its call = some its' ∧ (∀ it ∈ its', it.Inside b) ∧ Safe its' calls

/-- A string has its zero byte. -/
def Iter.Ends (it : Iter) : Prop := it.dataLen ≠ 0 → it.packFormat.head? = some 'U' → 0 ∈ it.rest b

/-- The second character of a struct is no parenthesis. -/
def Iter.Opens (it : Iter) : Prop := 2 < it.dataLen → ∀ fmt, it.packFormat = 't' :: '(' :: fmt →
  ¬ (fmt[1]? = some '(' ∨ fmt[1]? = some ')')

/-- A string that is stepped over ends, and a struct that is opened can be. -/
def CallOk (its : List Iter) : Call → Prop
  | .next i => ∀ it, its[i]? = some it → it.Ends b
  | .openContainer i => ∀ it, its[i]? = some it → it.Opens

def Meets : List Iter → List Call → Prop
  | _, [] => True
  | its, call :: calls =>
    CallOk b its call ∧ ∀ rounds its', step b rounds its call = some its' → Meets its' calls

variable {b : Buffer} {it : Iter}

theorem Iter.Inside.length_rest (h : it.Inside b) : ((it.rest b).length : Int) = it.dataLen := by
  obtain ⟨hptr, hlen, hsum⟩ := h
  rw [rest, length_take, length_drop]
  omega

/-- **A value ends inside the data**, but for a string without its zero byte. -/
theorem typeSize_le {n : Int} (h : it.Inside b) (hn : typeSize b it = some n) :
    0 ≤ n ∧ n ≤ it.dataLen ∧ (it.packFormat.head? = some 'U' → 0 ∈ it.rest b) ∨
      n = it.dataLen + 1 ∧ it.packFormat.head? = some 'U' ∧ 0 ∉ it.rest b := by
  have hlen := h.length_rest
  have hsmall : it.dataLen % 0x10000000000000000 = it.dataLen := by
    have := h.ptr
    have := h.len
    have := h.sum
    have := b.fits
    omega
  have hfixed : ∀ m, 0 ≤ m → (if m ≤ it.dataLen % 0x10000000000000000 then some m else none) = some n →
      0 ≤ n ∧ n ≤ it.dataLen := by
    intro m hpos hm
    rw [hsmall] at hm
    split at hm
    · cases hm
      exact ⟨hpos, by assumption⟩
    · cases hm
  have hblock : ((blockLen (it.rest b)).map Nat.cast).filter (fun n : Int => n < 1300 ∧ n ≤ it.dataLen) = some n →
      0 ≤ n ∧ n ≤ it.dataLen := by
    intro hm
    obtain ⟨hm, hcheck⟩ := filter_eq_some_iff.mp hm
    obtain ⟨k, -, rfl⟩ := map_eq_some_iff.mp hm
    exact ⟨Int.natCast_nonneg k, (of_decide_eq_true hcheck).2⟩
  by_cases hutf8 : it.packFormat.head? = some 'U'
  · obtain ⟨fmt, hfmt⟩ := head?_eq_some_iff.mp hutf8
    simp only [typeSize, hfmt, some.injEq] at hn
    by_cases hzero : 0 ∈ it.rest b
    · left
      have hlt : ((it.rest b).takeWhile (· ≠ 0)).length < (it.rest b).length := by
        refine Nat.lt_of_le_of_ne ( takeWhile_prefix _).length_le fun e => ?_
        have hall := takeWhile_eq_self_iff.mp (( takeWhile_prefix _).eq_of_length e) 0 hzero
        simp at hall
      exact ⟨by omega, by omega, fun _ => hzero⟩
    · right
      have hall : (it.rest b).takeWhile (· ≠ 0) = it.rest b :=
        takeWhile_eq_self_iff.mpr fun x hx => decide_eq_true fun e => hzero (e ▸ hx)
      rw [hall, hlen] at hn
      exact ⟨hn.symm, hutf8, hzero⟩
  · suffices hsize : 0 ≤ n ∧ n ≤ it.dataLen from .inl ⟨hsize.1, hsize.2, fun h => absurd h hutf8⟩
    unfold typeSize at hn
    dsimp only at hn
    split at hn
    case h_10 =>
      obtain ⟨x, -, rfl⟩ := map_eq_some_iff.mp hn
      omega
    case h_11 hfmt => exact absurd (by rw [hfmt]; rfl) hutf8
    all_goals first
      | exact hfixed _ (by decide) hn
      | exact hblock hn
      | cases hn
      | split at hn
        · cases hn
          exact ⟨h.len, Int.le_refl _⟩
        · exact hblock hn

/-- **A step leaves the iterator inside** exactly if a string ends inside. -/
theorem inside_next_iff (h : it.Inside b) : (it.next b).2.Inside b ↔ it.Ends b := by
  unfold Iter.next Iter.Ends
  by_cases hzero : it.dataLen = 0
  · rw [if_pos hzero]
    exact iff_of_true h fun hne => absurd hzero hne
  rw [if_neg hzero]
  cases hn : typeSize b it with
  | none =>
    refine iff_of_true h fun _ hutf8 => ?_
    obtain ⟨fmt, hfmt⟩ := head?_eq_some_iff.mp hutf8
    simp [typeSize, hfmt] at hn
  | some n =>
    have hfits := b.fits
    have hptr := h.ptr
    have hlen := h.len
    have hsum := h.sum
    rcases typeSize_le h hn with ⟨hpos, hle, hutf8⟩ | ⟨rfl, hutf8, hmiss⟩
    · have hint : int32 (it.dataLen - n) = it.dataLen - n := by
        unfold int32
        omega
      refine iff_of_true ⟨?_, ?_, ?_⟩ fun _ => hutf8
      · exact Int.add_nonneg hptr hpos
      · change 0 ≤ int32 (it.dataLen - n)
        omega
      · change it.dataPtr + n + int32 (it.dataLen - n) ≤ _
        omega
    · refine iff_of_false (fun hout => ?_) fun hall => hmiss (hall hzero hutf8)
      have hneg : 0 ≤ int32 (it.dataLen - (it.dataLen + 1)) := hout.len
      rw [show it.dataLen - (it.dataLen + 1) = -1 by omega] at hneg
      exact absurd hneg (by decide)

theorem depthLoop_paren {c : Option Char} (h : c = some '(' ∨ c = some ')') (rounds depth : Nat) :
    depthLoop c rounds depth = none := by
  induction rounds generalizing depth with
  | zero => rfl
  | succ rounds ih => simp [depthLoop, h, ih]

theorem depthLoop_other {c : Option Char} (h : ¬ (c = some '(' ∨ c = some ')')) (rounds : Nat) :
    depthLoop c (rounds + 1) 0 = some () := by
  simp [depthLoop, h]

theorem openContainer_inside (h : it.Inside b) (hopen : it.Opens) :
    ∃ x, it.openContainer b 1 = some x ∧ ∀ sub ∈ x.2, sub.Inside b := by
  unfold Iter.openContainer
  by_cases hlen : it.dataLen ≤ 2
  · exact ⟨_, if_pos hlen, by simp⟩
  rw [if_neg hlen]
  split
  · exact ⟨_, rfl, by simp⟩
  · next fmt hfmt =>
    have hother := hopen (by omega) fmt hfmt
    rw [depthLoop_other hother, map_some, if_neg fun e => hother (.inr e)]
    refine ⟨_, rfl, fun sub hsub => ?_⟩
    cases hsub
    exact ⟨h.ptr, h.len, h.sum⟩
  · exact ⟨_, rfl, by simpa using h⟩
  · exact ⟨_, rfl, by simp⟩

theorem openContainer_loops (hopen : ¬ it.Opens) (rounds : Nat) : it.openContainer b rounds = none := by
  unfold Iter.Opens at hopen
  push Not at hopen
  obtain ⟨hlen, fmt, hfmt, hparen⟩ := hopen
  rw [Iter.openContainer, if_neg (Int.not_le.mpr hlen)]
  simp [hfmt, depthLoop_paren hparen]

/-! ## 3. Safety of runs -/

variable {its its' : List Iter} {call : Call} {rounds : Nat}

theorem step_inside (h : ∀ it ∈ its, it.Inside b) (hok : CallOk b its call) :
    ∃ its', step b 1 its call = some its' ∧ ∀ it ∈ its', it.Inside b := by
  cases call with
  | next i =>
    refine ⟨_, rfl, fun it hit => ?_⟩
    obtain ⟨j, hj⟩ := mem_iff_getElem?.mp hit
    rw [getElem?_modify] at hj
    obtain ⟨old, hold, rfl⟩ := map_eq_some_iff.mp hj
    have hin := h old (mem_of_getElem? hold)
    split
    · next e =>
      subst e
      exact (inside_next_iff hin).mpr (hok old hold)
    · exact hin
  | openContainer i =>
    rw [step]
    cases hi : its[i]? with
    | none => exact ⟨its, rfl, h⟩
    | some it =>
      obtain ⟨x, hx, hsub⟩ := openContainer_inside (h it (mem_of_getElem? hi)) (hok it hi)
      refine ⟨its ++ x.2.toList, by simp [hx], fun sub hmem => ?_⟩
      rcases mem_append.mp hmem with hmem | hmem
      · exact h sub hmem
      · exact hsub sub (by simpa using hmem)

theorem callOk_of_step (h : ∀ it ∈ its, it.Inside b) (hstep : step b rounds its call = some its')
    (h' : ∀ it ∈ its', it.Inside b) : CallOk b its call := by
  cases call with
  | next i =>
    intro it hit
    refine (inside_next_iff (h it (mem_of_getElem? hit))).mp (h' _ ?_)
    rw [← some.inj hstep]
    exact mem_of_getElem? (by rw [getElem?_modify_eq, hit]; rfl)
  | openContainer i =>
    intro it hit
    by_contra hopen
    rw [step, hit] at hstep
    simp [openContainer_loops hopen] at hstep

theorem openContainer_unique {rounds' : Nat} {x y : Status × Option Iter}
    (hx : it.openContainer b rounds = some x) (hy : it.openContainer b rounds' = some y) : x = y := by
  unfold Iter.openContainer at hx hy
  by_cases hlen : it.dataLen ≤ 2
  · rw [if_pos hlen] at hx hy
    exact some.inj (hx.symm.trans hy)
  · rw [if_neg hlen] at hx hy
    split at hx <;> simp_all

theorem step_unique {rounds' : Nat} {its₁ its₂ : List Iter} (h : step b rounds its call = some its₁)
    (h' : step b rounds' its call = some its₂) : its₁ = its₂ := by
  cases call with
  | next i => exact some.inj (h.symm.trans h')
  | openContainer i =>
    rw [step] at h h'
    cases hi : its[i]? with
    | none =>
      rw [hi] at h h'
      exact some.inj (h.symm.trans h')
    | some it =>
      rw [hi] at h h'
      obtain ⟨x, hx, rfl⟩ := map_eq_some_iff.mp h
      obtain ⟨y, hy, rfl⟩ := map_eq_some_iff.mp h'
      rw [openContainer_unique hx hy]

theorem safe_iff_meets (calls : List Call) (h : ∀ it ∈ its, it.Inside b) :
    Safe b its calls ↔ Meets b its calls := by
  induction calls generalizing its with
  | nil => exact Iff.rfl
  | cons call calls ih =>
    constructor
    · rintro ⟨rounds, its', hstep, hin, hsafe⟩
      refine ⟨callOk_of_step h hstep hin, fun rounds' its₂ hstep' => ?_⟩
      rw [← step_unique hstep hstep']
      exact (ih hin).mp hsafe
    · rintro ⟨hok, hrest⟩
      obtain ⟨its', hstep, hin⟩ := step_inside h hok
      exact ⟨1, its', hstep, hin, (ih hin).mpr (hrest 1 its' hstep)⟩

/-- **In every run of calls the iterators stay inside the data and every call returns**, exactly if no call
    steps over a string without its zero byte or opens a struct with a parenthesis in second place. -/
theorem iter_safe_iff (b : Buffer) (packFormat : List Char) (container : Char) (calls : List Call) :
    Safe b [b.start packFormat container] calls ↔ Meets b [b.start packFormat container] calls := by
  refine safe_iff_meets calls fun it hit => ?_
  rw [mem_singleton.mp hit]
  exact ⟨Int.le_refl 0, Int.natCast_nonneg _, Int.le_of_eq (Int.zero_add _)⟩

/-- A string without its zero byte, and a struct of one byte. -/
theorem string_outside_and_struct_loops :
    ((Buffer.start ⟨[65], by decide⟩ ['U'] '.').next ⟨[65], by decide⟩).2 = ⟨2, -1, [], '.'⟩ ∧
      ∀ rounds, (Buffer.start ⟨[1, 0, 7], by decide⟩ "t(C)".toList '.').openContainer
        ⟨[1, 0, 7], by decide⟩ rounds = none := by
  refine ⟨by decide, fun rounds => openContainer_loops (fun h => ?_) rounds⟩
  exact h (by decide) ['C', ')'] rfl (by decide)

end DcuDaemon.Spinel.Iteration
