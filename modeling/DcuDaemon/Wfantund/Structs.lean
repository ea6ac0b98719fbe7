/-
  Values that are lists of structs, as the C++ daemon goes over them
  (`third_party/openthread/src/ncp/spinel.c`: `spinel_datatype_vunpack_`, and the loops `while
  (value_data_len > 0)` of its callers).

  Each turn unpacks one struct behind its 16-bit length. The loop ends at the end of the value, or at
  the first struct that cannot be unpacked; what the callers do then differs.

  Main result: `unpackStructs_eq_true_iff`.
-/
import DcuDaemon.Spinel.Datatype
import DcuDaemon.Wfantund.ValueDecoders

namespace DcuDaemon.Wfantund

open Spinel Spinel.Datatype List

def spinelFrameMaxSize : Nat := 1300

/-- The block of "d" or "t(..)" and what follows it; `none` when the unpacked length is not
    positive. -/
def unpackBlock (data : List UInt8) : Option (List UInt8 × List UInt8) :=
  if data.length ≤ spinelMaxPackLength then
    (unpackDataWlen data).filter fun x => x.1.length < spinelFrameMaxSize
  else none

/-- `while (value_data_len > 0)`: the variables at the end, and whether the value was gone over to its end. -/
def structLoop {τ : Type} (step : τ → List UInt8 → Option τ) : Nat → List UInt8 → τ → τ × Bool
  | 0, _, t => (t, false)
  | fuel + 1, data, t =>
    if data.length = 0 then (t, true)
    else
      match unpackBlock data with
      | none => (t, false)
      | some (block, post) =>
        match step t block with
        | none => (t, false)
        | some t' => structLoop step fuel post t'

/-- "b". -/
def unpackBool (data : List UInt8) : Option (Bool × List UInt8) :=
  (unpackUint8 data).map (Prod.map (fun b => b ≠ 0) id)

/-- The entries of a value up to the first one that cannot be unpacked, and whether there is none
    such. -/
def unpackStructs {α : Type} (unpack : List UInt8 → Option α) (data : List UInt8) : List α × Bool :=
  structLoop (fun done block => (unpack block).map fun x => done ++ [x]) (data.length + 1) data []

/-- The blocks have room: each of them, and all of them together with their lengths. -/
structure HasRoom (blocks : List (List UInt8)) : Prop where
  each : ∀ block ∈ blocks, block.length < spinelFrameMaxSize
  all : (structEntries blocks).length ≤ spinelMaxPackLength

instance (blocks : List (List UInt8)) : Decidable (HasRoom blocks) :=
  decidable_of_iff ((∀ block ∈ blocks, block.length < spinelFrameMaxSize) ∧
    (structEntries blocks).length ≤ spinelMaxPackLength)
    ⟨fun h => ⟨h.1, h.2⟩, fun h => ⟨h.each, h.all⟩⟩

theorem length_structEntry (block : List UInt8) : (structEntry block).length = 2 + block.length := by
  rw [structEntry, length_append, length_leBytes]

theorem structEntries_cons (block : List UInt8) (blocks : List (List UInt8)) :
    structEntries (block :: blocks) = structEntry block ++ structEntries blocks := rfl

theorem hasRoom_cons {block : List UInt8} {blocks : List (List UInt8)} (h : HasRoom (block :: blocks)) :
    HasRoom blocks := by
  refine ⟨fun b hb => h.each b (mem_cons_of_mem block hb), ?_⟩
  have hall := h.all
  rw [structEntries_cons, length_append] at hall
  omega

theorem unpackBlock_eq_some {data block post : List UInt8} : unpackBlock data = some (block, post) ↔
      data.length ≤ spinelMaxPackLength ∧ block.length < spinelFrameMaxSize ∧
        data = structEntry block ++ post := by
  unfold unpackBlock
  split
  · rename_i hlen
    rw [Option.filter_eq_some_iff, decide_eq_true_eq, unpackDataWlen_eq_some]
    constructor
    · intro ⟨⟨_, hdata⟩, hblock⟩
      exact ⟨hlen, hblock, hdata⟩
    · intro ⟨_, hblock, hdata⟩
      have hmax : spinelFrameMaxSize = 1300 := rfl
      exact ⟨⟨show block.length < 65536 by omega, hdata⟩, hblock⟩
  · rename_i hlen
    exact ⟨fun h => (nomatch h), fun h => absurd h.1 hlen⟩

section Loop

variable {τ : Type} {step : τ → List UInt8 → Option τ}
variable {t : τ} {data : List UInt8} {α : Type} {unpack : List UInt8 → Option α} {xs : List α}

theorem structLoop_invariant {Inv : τ → Prop}
    (hstep : ∀ t block t', Inv t → step t block = some t' → Inv t') (ht : Inv t) (fuel : Nat)
    (data : List UInt8) : Inv (structLoop step fuel data t).1 := by
  induction fuel generalizing data t with
  | zero => exact ht
  | succ fuel ih =>
    rw [structLoop]
    split
    · exact ht
    split
    · exact ht
    split
    · exact ht
    · rename_i t' hturn
      exact ih (hstep t _ t' ht hturn) _

/-- **The loop gets to the end** exactly for packed structs that have room and that its body takes. -/
theorem structLoop_eq_true_iff {fuel : Nat} (hfuel : data.length < fuel) {t' : τ} :
    structLoop step fuel data t = (t', true) ↔
      ∃ blocks, data = structEntries blocks ∧ HasRoom blocks ∧ blocks.foldlM step t = some t' := by
  induction fuel generalizing data t with
  | zero => exact absurd hfuel (Nat.not_lt_zero _)
  | succ fuel ih =>
    rw [structLoop]
    split
    · rename_i hnil
      obtain rfl := length_eq_zero_iff.mp hnil
      constructor
      · intro h
        cases h
        exact ⟨[], rfl, by decide, rfl⟩
      · intro ⟨blocks, hdata, _, hfold⟩
        cases blocks with
        | nil =>
          cases hfold
          rfl
        | cons block blocks =>
          have hlen := congrArg length hdata
          rw [structEntries_cons, length_append, length_structEntry, length_nil] at hlen
          omega
    · rename_i hne
      constructor
      · intro h
        split at h
        · cases h
        · rename_i block post hblock
          obtain ⟨hlen, hsize, rfl⟩ := unpackBlock_eq_some.mp hblock
          split at h
          · cases h
          · rename_i t₁ hstep
            have hpost : post.length < fuel := by
              rw [length_append, length_structEntry] at hfuel
              omega
            obtain ⟨blocks, rfl, hroom, hfold⟩ := (ih hpost).mp h
            refine ⟨block :: blocks, rfl, ⟨forall_mem_cons.mpr ⟨hsize, hroom.each⟩, hlen⟩, ?_⟩
            rw [foldlM_cons, hstep]
            exact hfold
      · intro ⟨blocks, hdata, hroom, hfold⟩
        cases blocks with
        | nil => exact absurd (congrArg length hdata) hne
        | cons block blocks =>
          rw [structEntries_cons] at hdata
          subst hdata
          obtain ⟨t₁, hstep, hrest⟩ := Option.bind_eq_some_iff.mp
            (show (step t block).bind (fun t₁ => blocks.foldlM step t₁) = some t' from hfold)
          have hblock : unpackBlock (structEntry block ++ structEntries blocks) =
              some (block, structEntries blocks) :=
            unpackBlock_eq_some.mpr ⟨hroom.all, hroom.each block mem_cons_self, rfl⟩
          have hpost : (structEntries blocks).length < fuel := by
            rw [length_append, length_structEntry] at hfuel
            omega
          rw [hblock]
          dsimp only
          rw [hstep]
          exact (ih hpost).mpr ⟨blocks, rfl, hasRoom_cons hroom, hrest⟩

theorem foldlM_collect_iff {blocks : List (List UInt8)} {done all : List α} :
    blocks.foldlM (fun done block => (unpack block).map fun x => done ++ [x]) done = some all ↔
      ∃ xs, all = done ++ xs ∧ blocks.map unpack = xs.map some := by
  induction blocks generalizing done with
  | nil =>
    constructor
    · intro h
      cases h
      exact ⟨[], (append_nil all).symm, rfl⟩
    · intro ⟨xs, hall, hxs⟩
      obtain rfl := map_eq_nil_iff.mp hxs.symm
      rw [hall, append_nil]
      rfl
  | cons block blocks ih =>
    rw [foldlM_cons]
    cases hblock : unpack block with
    | none =>
      refine ⟨fun h => (nomatch h), fun ⟨xs, _, hxs⟩ => ?_⟩
      cases xs with
      | nil => cases hxs
      | cons x xs =>
        rw [map_cons, hblock] at hxs
        cases (cons.inj hxs).1
    | some x =>
      show blocks.foldlM _ (done ++ [x]) = _ ↔ _
      rw [ih]
      constructor
      · intro ⟨xs, hall, hxs⟩
        refine ⟨x :: xs, by rw [hall, append_assoc]; rfl, ?_⟩
        rw [map_cons, hblock, hxs]
        rfl
      · intro ⟨xs, hall, hxs⟩
        cases xs with
        | nil => cases hxs
        | cons x' xs =>
          rw [map_cons, hblock] at hxs
          obtain ⟨hx, htail⟩ := cons.inj hxs
          obtain rfl := Option.some.inj hx
          exact ⟨xs, by rw [hall, append_assoc]; rfl, htail⟩

/-- **A value is read to its end** exactly if it packs blocks that have room and that can all be
    unpacked. -/
theorem unpackStructs_eq_true_iff : unpackStructs unpack data = (xs, true) ↔
      ∃ blocks, data = structEntries blocks ∧ HasRoom blocks ∧ blocks.map unpack = xs.map some := by
  rw [unpackStructs, structLoop_eq_true_iff (Nat.lt_succ_self _)]
  refine exists_congr fun blocks => and_congr_right fun _ => and_congr_right fun _ => ?_
  rw [foldlM_collect_iff]
  constructor
  · intro ⟨ys, hys, hmap⟩
    rw [hys]
    exact hmap
  · intro hmap
    exact ⟨xs, rfl, hmap⟩

end Loop

end DcuDaemon.Wfantund
