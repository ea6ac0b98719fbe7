/-
  The timers of the C++ daemon (`src/util/Timer.cpp`, `Timer.h`): a list that is linked through the
  timers and kept in the order of their fire times, which wrap around.

  A callback may schedule and cancel timers while the list is processed, so the rounds of `process` are
  steps of their own and calls come between them; `process_is_run` -- a whole `process`, with what its
  callbacks do, is such a run.

  Main result: `timer_list_sound`.
-/
import DcuDaemon.Lib.Chain
import DcuDaemon.Lib.Run
import DcuDaemon.Lib.WrapTime

namespace DcuDaemon.Util

open Lib List Option Function

/-! ## 1. The timers -/

inductive TimerType where
  | oneShot
  | periodicFixedRate
  | periodicFixedDelay
  deriving DecidableEq

/-- `mFireTime`, `mInterval`, `mCallback` and `mType` of a timer. -/
structure TimerInfo (κ : Type) where
  fireTime : Time32
  interval : Time32
  callback : κ
  type : TimerType

/-- The timers, by number: `mListHead`, `mNext` of each timer, and its other members. -/
structure Timers (κ : Type) where
  listHead : Link Nat
  next : Nat → Link Nat
  info : Nat → TimerInfo κ

namespace Timers

variable {κ : Type}

def new (info : Nat → TimerInfo κ) : Timers κ := ⟨.marker, fun _ => .null, info⟩

def fireTime (s : Timers κ) (timer : Nat) : Time32 := (s.info timer).fireTime

/-- `operator<` of the fire times. -/
def firesBefore (s : Timers κ) (timer other : Nat) : Bool :=
  Time32.before (s.fireTime timer) (s.fireTime other)

/-- `is_expired`: the fire time is now or in the past. -/
def isExpired (s : Timers κ) (timer : Nat) (now : Time32) : Bool :=
  decide ((s.fireTime timer - now).toInt ≤ 0)

/-- The loop of `add`, for as many rounds; a null pointer is not followed. -/
def addLoop (s : Timers κ) (timer : Nat) : Nat → Nat → Option (Timers κ)
  | 0, _ => none
  | fuel + 1, cur =>
    match s.next cur with
    | .null => none
    | .marker => some { s with next := update (update s.next timer .marker) cur (.node timer) }
    | .node n =>
      if s.firesBefore timer n then
        some { s with next := update (update s.next timer (.node n)) cur (.node timer) }
      else addLoop s timer fuel n

def add (fuel : Nat) (s : Timers κ) (timer : Nat) : Option (Timers κ) :=
  match s.listHead with
  | .null => none
  | .marker => some { s with next := update s.next timer .marker, listHead := .node timer }
  | .node h =>
    if s.firesBefore timer h then
      some { s with next := update s.next timer (.node h), listHead := .node timer }
    else s.addLoop timer fuel h

/-- The loop of `remove`; at the marker the timer was not found, which is only logged. -/
def removeLoop (s : Timers κ) (timer : Nat) : Nat → Link Nat → Option (Timers κ)
  | _, .marker => some s
  | 0, _ => none
  | _ + 1, .null => none
  | fuel + 1, .node cur =>
    if s.next cur = .node timer then
      some { s with next := update (update s.next cur (s.next timer)) timer .null }
    else removeLoop s timer fuel (s.next cur)

def remove (fuel : Nat) (s : Timers κ) (timer : Nat) : Option (Timers κ) :=
  if s.next timer = .null then some s
  else if s.listHead = .node timer then
    some { s with listHead := s.next timer, next := update s.next timer .null }
  else s.removeLoop timer fuel s.listHead

def setInfo (s : Timers κ) (timer : Nat) (i : TimerInfo κ) : Timers κ :=
  { s with info := update s.info timer i }

/-- `schedule`, when `time_ms` says `now`. -/
def schedule (fuel : Nat) (s : Timers κ) (timer : Nat) (interval : Time32) (callback : κ) (type : TimerType)
    (now : Time32) : Option (Timers κ) :=
  (s.remove fuel timer).bind fun s =>
    if interval.toInt > 0 then add fuel (s.setInfo timer ⟨interval + now, interval, callback, type⟩) timer
    else some s

def cancel (fuel : Nat) (s : Timers κ) (timer : Nat) : Option (Timers κ) := s.remove fuel timer

def popHead (s : Timers κ) (timer : Nat) : Timers κ :=
  { s with listHead := s.next timer, next := update s.next timer .null }

/-- The next fire time of a periodic timer; `later` is what `time_ms` says when it is asked again. -/
def restart (s : Timers κ) (timer : Nat) (later : Time32) : Option (TimerInfo κ) :=
  match (s.info timer).type with
  | .oneShot => none
  | .periodicFixedRate => some { s.info timer with fireTime := (s.info timer).interval + s.fireTime timer }
  | .periodicFixedDelay => some { s.info timer with fireTime := (s.info timer).interval + later }

/-- One round of the loop of `process`, up to the callback: the timer and the callback. -/
def processRound (fuel : Nat) (s : Timers κ) (now later : Time32) : Option (Timers κ × Option (Nat × κ)) :=
  match s.listHead with
  | .null => none
  | .marker => some (s, none)
  | .node timer =>
    if s.isExpired timer now then
      match s.restart timer later with
      | none => some (s.popHead timer, some (timer, (s.info timer).callback))
      | some i =>
        (add fuel ((s.popHead timer).setInfo timer i) timer).map fun s' =>
          (s', some (timer, (s.info timer).callback))
    else some (s, none)

end Timers

/-- What the daemon, and a callback, can do with a timer. -/
inductive TimerCall (κ : Type) where
  | schedule (timer : Nat) (interval : Time32) (callback : κ) (type : TimerType) (now : Time32)
  | cancel (timer : Nat)

namespace Timers

variable {κ : Type}

def call (fuel : Nat) (s : Timers κ) : TimerCall κ → Option (Timers κ)
  | .schedule timer interval callback type now => s.schedule fuel timer interval callback type now
  | .cancel timer => s.cancel fuel timer

/-- `process`, for as many rounds: `body` says what a callback does, `clock` what `time_ms` says in each round. -/
def process (fuel : Nat) (body : Timers κ → Nat → κ → List (TimerCall κ)) (clock : Nat → Time32 × Time32) :
    Nat → Timers κ → Option (Timers κ)
  | 0, _ => none
  | rounds + 1, s =>
    match s.processRound fuel (clock rounds).1 (clock rounds).2 with
    | none => none
    | some (s', none) => some s'
    | some (s', some (timer, callback)) =>
      ((body s' timer callback).foldlM (call fuel) s').bind (process fuel body clock rounds)

end Timers

/-! ## 2. Runs -/

/-- A call, from a callback or not, or a round of `process`. -/
inductive TimerOp (κ : Type) where
  | call (c : TimerCall κ)
  | round (now later : Time32)

/-- The timers, and on record when each was started last, unless it was stopped since or has expired. -/
structure TimerWorld (κ : Type) where
  timers : Timers κ
  started : Nat → Option Nat
  starts : Nat

namespace TimerWorld

variable {κ : Type}

def new (info : Nat → TimerInfo κ) : TimerWorld κ := ⟨Timers.new info, fun _ => none, 0⟩

def starting (w : TimerWorld κ) (timer : Nat) (s : Timers κ) : TimerWorld κ :=
  ⟨s, update w.started timer (some w.starts), w.starts + 1⟩

def stopping (w : TimerWorld κ) (timer : Nat) (s : Timers κ) : TimerWorld κ :=
  ⟨s, update w.started timer none, w.starts⟩

/-- A step, and the callback that is invoked in it. -/
def step (fuel : Nat) (w : TimerWorld κ) : TimerOp κ → Option (TimerWorld κ × Option (Nat × κ))
  | .call (.schedule timer interval callback type now) =>
    (w.timers.schedule fuel timer interval callback type now).map fun s =>
      (if interval.toInt > 0 then w.starting timer s else w.stopping timer s, none)
  | .call (.cancel timer) => (w.timers.cancel fuel timer).map fun s => (w.stopping timer s, none)
  | .round now later =>
    (w.timers.processRound fuel now later).map fun r =>
      match r.2 with
      | none => ({ w with timers := r.1 }, none)
      | some (timer, callback) =>
        (if (w.timers.info timer).type = .oneShot then w.stopping timer r.1 else w.starting timer r.1,
          some (timer, callback))

def run (fuel : Nat) (w : TimerWorld κ) (ops : List (TimerOp κ)) : Option (TimerWorld κ) :=
  ops.foldlM (fun w op => (w.step fuel op).map Prod.fst) w

end TimerWorld

/-! ## 3. The shape of the list -/

namespace Timers

variable {κ : Type}

/-- **The list goes through these timers**, once through each, and ends; no other timer is linked. -/
structure Shape (s : Timers κ) (xs : List Nat) : Prop where
  chain : Chain s.next s.listHead xs
  nodup : xs.Nodup
  outside : ∀ t, t ∉ xs → s.next t = .null

section Shape

variable {s : Timers κ} {xs : List Nat} {timer fuel : Nat}

theorem shape_new (info : Nat → TimerInfo κ) : Shape (new info) [] := ⟨rfl, nodup_nil, fun _ _ => rfl⟩

theorem Shape.next_eq_null_iff (h : Shape s xs) (t : Nat) : s.next t = .null ↔ t ∉ xs :=
  ⟨fun hnull hmem => h.chain.next_ne_null hmem hnull, h.outside t⟩

theorem Shape.setInfo (h : Shape s xs) (t : Nat) (i : TimerInfo κ) : Shape (s.setInfo t i) xs :=
  ⟨h.chain, h.nodup, h.outside⟩

variable {s' : Timers κ} {back : List Nat} {cur : Nat}

theorem Shape.of_insert (h : Shape s xs) (ht : timer ∉ xs) {test : Nat → Bool}
    (hchain : Chain s'.next s'.listHead (insertBefore test timer xs))
    (hsame : ∀ t, t ∉ timer :: xs → s'.next t = s.next t) : Shape s' (insertBefore test timer xs) where
  chain := hchain
  nodup := insertBefore_perm.nodup_iff.mpr (nodup_cons.mpr ⟨ht, h.nodup⟩)
  outside := fun t hmem => by
    have hnot : t ∉ timer :: xs := fun hin => hmem (insertBefore_perm.mem_iff.mpr hin)
    rw [hsame t hnot]
    exact h.outside t fun hin => hnot (mem_cons_of_mem timer hin)

/-- The loop of `add` ends and puts the timer at its place behind the one it starts from. -/
theorem addLoop_spec (front : List Nat) (h : Shape s (front ++ cur :: back))
    (ht : timer ∉ front ++ cur :: back) (hfuel : back.length < fuel) :
    ∃ next', s.addLoop timer fuel cur = some { s with next := next' } ∧
      Chain next' s.listHead (front ++ cur :: insertBefore (s.firesBefore timer) timer back) ∧
      ∀ t, t ∉ timer :: (front ++ cur :: back) → next' t = s.next t := by
  induction fuel generalizing front cur back with
  | zero => exact absurd hfuel (Nat.not_lt_zero _)
  | succ fuel ih =>
    have hframe : ∀ q : Link Nat, ∀ t, t ∉ timer :: (front ++ cur :: back) →
        update (update s.next timer q) cur (.node timer) t = s.next t := by
      intro q t hmem
      have htimer : t ≠ timer := ne_of_not_mem_cons hmem
      have hcur : t ≠ cur := fun heq =>
        hmem (mem_cons_of_mem _ (mem_append_right front (heq ▸ mem_cons_self)))
      rw [update_of_ne hcur, update_of_ne htimer]
    have hinsert := chain_insert h.chain h.nodup ht
    have hbehind := h.chain.behind
    rw [addLoop]
    cases back with
    | nil =>
      have hmarker : s.next cur = .marker := hbehind
      rw [hmarker] at hinsert ⊢
      exact ⟨_, rfl, hinsert, hframe _⟩
    | cons n rest =>
      have hnode : s.next cur = .node n := hbehind.1
      rw [hnode] at hinsert ⊢
      rw [insertBefore]
      by_cases hbefore : s.firesBefore timer n
      · rw [if_pos hbefore]
        exact ⟨_, if_pos hbefore, hinsert, hframe _⟩
      · rw [if_neg hbefore]
        rw [append_cons front cur (n :: rest)] at h ht ⊢
        rw [append_cons front cur (n :: insertBefore _ _ _)]
        obtain ⟨next', hloop, hchain, hsame⟩ := ih _ h ht (Nat.lt_of_succ_lt_succ hfuel)
        exact ⟨next', (if_neg hbefore).trans hloop, hchain, hsame⟩

/-- **`add` ends**, with the timer in front of those that fire later. -/
theorem shape_add (h : Shape s xs) (ht : timer ∉ xs) (hfuel : xs.length ≤ fuel) :
    ∃ s', add fuel s timer = some s' ∧ s'.info = s.info ∧
      Shape s' (insertBefore (s.firesBefore timer) timer xs) := by
  have hframe : ∀ q : Link Nat, ∀ t, t ∉ timer :: xs → update s.next timer q t = s.next t :=
    fun q t hmem => update_of_ne (ne_of_not_mem_cons hmem) _ _
  have hchain := h.chain
  rw [add]
  cases xs with
  | nil =>
    have hmarker : s.listHead = .marker := hchain
    rw [hmarker]
    exact ⟨_, rfl, rfl, h.of_insert ht ⟨rfl, update_self ..⟩ (hframe _)⟩
  | cons x xs =>
    rw [hchain.1]
    by_cases hbefore : s.firesBefore timer x
    · refine ⟨_, if_pos hbefore, rfl, h.of_insert ht ?_ (hframe _)⟩
      rw [insertBefore, if_pos hbefore]
      refine ⟨rfl, ?_⟩
      show Chain (update s.next timer (.node x)) (update s.next timer (.node x) timer) _
      rw [update_self]
      exact (hchain.1 ▸ hchain : Chain s.next (.node x) (x :: xs)).update_of_not_mem ht _
    · obtain ⟨next', hloop, hchain', hsame⟩ := addLoop_spec [] h ht hfuel
      refine ⟨_, (if_neg hbefore).trans hloop, rfl, h.of_insert ht ?_ hsame⟩
      rw [insertBefore, if_neg hbefore]
      exact hchain'

theorem Shape.of_erase (h : Shape s xs) (hchain : Chain s'.next s'.listHead (xs.erase timer))
    (hnull : s'.next timer = .null) (hsame : ∀ t, t ∉ xs → s'.next t = s.next t) :
    Shape s' (xs.erase timer) where
  chain := hchain
  nodup := h.nodup.erase timer
  outside := fun t hmem => by
    by_cases heq : t = timer
    · rw [heq, hnull]
    · have hnot : t ∉ xs := fun hin => hmem ((mem_erase_of_ne heq).mpr hin)
      rw [hsame t hnot, h.outside t hnot]

theorem removeLoop_spec (front : List Nat) (h : Shape s (front ++ cur :: back))
    (ht : timer ∈ back) (hfuel : back.length ≤ fuel) :
    ∃ next', s.removeLoop timer fuel (.node cur) = some { s with next := next' } ∧
      Chain next' s.listHead (front ++ cur :: back.erase timer) ∧ next' timer = .null ∧
      ∀ t, t ∉ front ++ cur :: back → next' t = s.next t := by
  induction fuel generalizing front cur back with
  | zero =>
    rw [eq_nil_of_length_eq_zero (Nat.le_zero.mp hfuel)] at ht
    exact absurd ht not_mem_nil
  | succ fuel ih =>
    cases back with
    | nil => exact absurd ht not_mem_nil
    | cons n rest =>
      have hnode : s.next cur = .node n := h.chain.behind.1
      rw [removeLoop, hnode]
      by_cases heq : n = timer
      · subst heq
        rw [if_pos rfl, erase_cons_head]
        refine ⟨_, rfl, chain_unlink h.chain h.nodup, update_self .., fun t hmem => ?_⟩
        have hback : cur :: n :: rest ⊆ front ++ cur :: n :: rest := subset_append_right ..
        have hn : t ≠ n := fun e => hmem (hback (e ▸ mem_cons_of_mem cur mem_cons_self))
        have hcur : t ≠ cur := fun e => hmem (hback (e ▸ mem_cons_self))
        rw [update_of_ne hn, update_of_ne hcur]
      · have hrest : timer ∈ rest := (mem_cons.mp ht).resolve_left fun e => heq e.symm
        rw [if_neg fun e => heq (Link.node.inj e), erase_cons_tail (by simpa using heq),
          append_cons front cur]
        rw [append_cons front cur (n :: rest)] at h ⊢
        exact ih _ h hrest (Nat.le_of_succ_le_succ hfuel)

theorem shape_popHead (h : Shape s (timer :: xs)) : Shape (s.popHead timer) xs := by
  have hnodup := nodup_cons.mp h.nodup
  refine ⟨?_, hnodup.2, fun t hmem => ?_⟩
  · exact h.chain.2.update_of_not_mem hnodup.1 _
  · by_cases heq : t = timer
    · rw [heq]
      exact update_self ..
    · refine (update_of_ne heq ..).trans (h.outside t fun hin => ?_)
      exact (mem_cons.mp hin).elim heq hmem

/-- **`remove` ends**, with the timer out of the list, if it was in it. -/
theorem shape_remove (h : Shape s xs) (hfuel : xs.length ≤ fuel) (timer : Nat) :
    ∃ s', remove fuel s timer = some s' ∧ s'.info = s.info ∧ Shape s' (xs.erase timer) := by
  rw [remove]
  by_cases hin : timer ∈ xs
  · rw [if_neg fun hnull => (h.next_eq_null_iff timer).mp hnull hin]
    cases xs with
    | nil => exact absurd hin not_mem_nil
    | cons x xs =>
      by_cases heq : x = timer
      · subst heq
        rw [if_pos h.chain.1, erase_cons_head]
        exact ⟨_, rfl, rfl, shape_popHead h⟩
      · have hrest : timer ∈ xs := (mem_cons.mp hin).resolve_left fun e => heq e.symm
        rw [h.chain.1, if_neg fun e => heq (Link.node.inj e)]
        obtain ⟨next', hloop, hchain, hnull, hsame⟩ := removeLoop_spec [] h hrest (Nat.le_of_succ_le hfuel)
        refine ⟨_, hloop, rfl, h.of_erase ?_ hnull hsame⟩
        rw [erase_cons_tail (by simpa using heq)]
        exact hchain
  · rw [if_pos ((h.next_eq_null_iff timer).mpr hin), erase_of_not_mem hin]
    exact ⟨s, rfl, rfl, h⟩

end Shape

end Timers

/-! ## 4. Order and record -/

/-- A timer fires before another one, or at the same time and was started first. -/
def Earlier (fire : Nat → Time32) (started : Nat → Option Nat) (x y : Nat) : Prop :=
  Time32.before (fire x) (fire y) = true ∨
    fire x = fire y ∧ ∃ m n, started x = some m ∧ started y = some n ∧ m < n

theorem Earlier.trans {fire : Nat → Time32} {started : Nat → Option Nat} {base : Time32} {x y z : Nat}
    (hx : Time32.InWindow base (fire x)) (hy : Time32.InWindow base (fire y)) (hz : Time32.InWindow base (fire z))
    (hxy : Earlier fire started x y) (hyz : Earlier fire started y z) : Earlier fire started x z := by
  rcases hxy with hxy | ⟨hxy, m, n, hm, hn, hlt⟩
  · rcases hyz with hyz | ⟨hyz, -⟩
    · have hfirst := (Time32.before_iff hx hy).mp hxy
      have hsecond := (Time32.before_iff hy hz).mp hyz
      exact .inl ((Time32.before_iff hx hz).mpr (hfirst.trans hsecond))
    · exact .inl (hyz ▸ hxy)
  · rcases hyz with hyz | ⟨hyz, n', k, hn', hk, hlt'⟩
    · exact .inl (hxy ▸ hyz)
    · obtain rfl := some.inj (hn.symm.trans hn')
      exact .inr ⟨hxy.trans hyz, m, k, hm, hk, hlt.trans hlt'⟩

namespace TimerWorld

variable {κ : Type}

/-- The fire times of the running timers lie within 2^31 milliseconds. -/
def OneWindow (w : TimerWorld κ) : Prop :=
  ∃ base, ∀ t, (w.started t).isSome = true → Time32.InWindow base (w.timers.fireTime t)

/-- **The timer list** goes through `xs`, the running timers, each once, in the order of their fire times,
    equal ones in the order of their starts. -/
structure Linked (w : TimerWorld κ) (xs : List Nat) : Prop where
  shape : w.timers.Shape xs
  running : ∀ t, t ∈ xs ↔ (w.started t).isSome = true
  ordered : xs.Pairwise (Earlier w.timers.fireTime w.started)
  starts : ∀ t n, w.started t = some n → n < w.starts

section Linked

variable {w : TimerWorld κ} {s s' : Timers κ} {xs : List Nat} {timer fuel : Nat}

theorem linked_new (info : Nat → TimerInfo κ) : Linked (new info) [] where
  shape := Timers.shape_new info
  running := fun _ => ⟨fun h => absurd h not_mem_nil, fun h => absurd h Bool.false_ne_true⟩
  ordered := List.Pairwise.nil
  starts := fun _ _ h => absurd h (by simp [new])

theorem ordered_congr {fire fire' : Nat → Time32} {started started' : Nat → Option Nat} (ht : timer ∉ xs)
    (hfire : ∀ t ≠ timer, fire' t = fire t) (hstarted : ∀ t ≠ timer, started' t = started t)
    (h : xs.Pairwise (Earlier fire started)) : xs.Pairwise (Earlier fire' started') := by
  refine h.imp_of_mem fun {x y} hx hy hxy => ?_
  have hxt := ne_of_mem_of_not_mem hx ht
  have hyt := ne_of_mem_of_not_mem hy ht
  rw [Earlier, hfire x hxt, hfire y hyt, hstarted x hxt, hstarted y hyt]
  exact hxy

theorem linked_stopping (h : Linked w xs) (hinfo : s.info = w.timers.info) (hshape : s.Shape (xs.erase timer)) :
    Linked (w.stopping timer s) (xs.erase timer) where
  shape := hshape
  running := fun t => by
    show _ ↔ (update w.started timer none t).isSome
    rw [h.shape.nodup.mem_erase_iff, h.running]
    by_cases heq : t = timer
    · rw [heq, update_self]
      exact ⟨fun hboth => absurd rfl hboth.1, fun hno => absurd hno Bool.false_ne_true⟩
    · rw [update_of_ne heq]
      exact ⟨And.right, fun hin => ⟨heq, hin⟩⟩
  ordered := by
    refine ordered_congr h.shape.nodup.not_mem_erase (fun t _ => ?_) (fun t hne => update_of_ne hne ..)
      (h.ordered.sublist erase_sublist)
    show (s.info t).fireTime = (w.timers.info t).fireTime
    rw [hinfo]
  starts := fun t n hn => by
    by_cases heq : t = timer
    · rw [heq] at hn
      exact absurd ((update_self ..).symm.trans hn) (by simp)
    · exact h.starts t n ((update_of_ne heq ..).symm.trans hn)

theorem ordered_insert {fire : Nat → Time32} {started : Nat → Option Nat} {base : Time32} {k : Nat}
    (h : xs.Pairwise (Earlier fire started)) (hlast : started timer = some k)
    (hold : ∀ x ∈ xs, ∃ n, started x = some n ∧ n < k)
    (hwindow : ∀ x ∈ timer :: xs, Time32.InWindow base (fire x)) :
    (insertBefore (fun x => Time32.before (fire timer) (fire x)) timer xs).Pairwise (Earlier fire started) := by
  have htimer := hwindow timer mem_cons_self
  have hxs : ∀ x ∈ xs, Time32.InWindow base (fire x) := fun x hx => hwindow x (mem_cons_of_mem timer hx)
  refine pairwise_insertBefore h (fun x _ hbefore => .inl hbefore) (fun x hx hbefore => ?_)
    fun x hx y hy => Earlier.trans htimer (hxs x hx) (hxs y hy)
  have hle := (Time32.not_before_iff htimer (hxs x hx)).mp hbefore
  rcases Nat.lt_or_eq_of_le hle with hlt | heq
  · exact .inl ((Time32.before_iff (hxs x hx) htimer).mpr hlt)
  · obtain ⟨n, hn, hlt⟩ := hold x hx
    exact .inr ⟨Time32.offset_inj heq, n, k, hn, hlast, hlt⟩

theorem linked_starting (h : Linked w xs) (ht : timer ∉ xs) (hsame : ∀ t ≠ timer, s.info t = w.timers.info t)
    (hinfo : s'.info = s.info) (hshape : s'.Shape (insertBefore (s.firesBefore timer) timer xs))
    (hwindow : (w.starting timer s').OneWindow) :
    Linked (w.starting timer s') (insertBefore (s.firesBefore timer) timer xs) := by
  have hfire : s'.fireTime = s.fireTime := funext fun t => by rw [Timers.fireTime, hinfo]; rfl
  have hself : (w.starting timer s').started timer = some w.starts := update_self ..
  have hother : ∀ t ≠ timer, (w.starting timer s').started t = w.started t := fun t hne =>
    update_of_ne hne ..
  have hrunning : ∀ t, t ∈ timer :: xs ↔ ((w.starting timer s').started t).isSome := by
    intro t
    by_cases heq : t = timer
    · rw [heq, hself]
      exact ⟨fun _ => rfl, fun _ => mem_cons_self⟩
    · rw [hother t heq, ← h.running, mem_cons]
      exact ⟨fun hin => hin.resolve_left heq, .inr⟩
  refine ⟨hshape, fun t => insertBefore_perm.mem_iff.trans (hrunning t), ?_, fun t n hn => ?_⟩
  · obtain ⟨base, hbase⟩ := hwindow
    have hkept : xs.Pairwise (Earlier s'.fireTime (w.starting timer s').started) := by
      refine ordered_congr ht (fun t hne => ?_) hother h.ordered
      rw [hfire, Timers.fireTime, hsame t hne]
      rfl
    have hinsert := ordered_insert hkept hself (fun x hx => ?_) fun x hx => hbase x ((hrunning x).mp hx)
    · rw [hfire] at hinsert
      show List.Pairwise (Earlier s'.fireTime _) _
      rw [hfire]
      exact hinsert
    · obtain ⟨n, hn⟩ := isSome_iff_exists.mp ((h.running x).mp hx)
      exact ⟨n, (hother x (ne_of_mem_of_not_mem hx ht)).trans hn, h.starts x n hn⟩
  · by_cases heq : t = timer
    · rw [heq, hself] at hn
      exact some.inj hn ▸ Nat.lt_succ_self w.starts
    · rw [hother t heq] at hn
      exact Nat.lt_succ_of_lt (h.starts t n hn)

theorem starting_stopping (w : TimerWorld κ) (timer : Nat) (s s' : Timers κ) :
    (w.stopping timer s).starting timer s' = w.starting timer s' := by
  rw [starting, stopping, starting, update_idem]

/-- **A timer that is out of the list is put in again.** -/
theorem linked_restart (h : Linked w xs) (hin : s.info = w.timers.info) (hshape : s.Shape (xs.erase timer))
    (hfuel : xs.length ≤ fuel) (i : TimerInfo κ) :
    ∃ s', Timers.add fuel (s.setInfo timer i) timer = some s' ∧ ((w.starting timer s').OneWindow →
        ∃ xs', Linked (w.starting timer s') xs' ∧ xs'.length ≤ xs.length + 1) := by
  have hstopped := linked_stopping h hin hshape
  have ht : timer ∉ xs.erase timer := h.shape.nodup.not_mem_erase
  have hlen : (xs.erase timer).length ≤ xs.length := erase_sublist.length_le
  obtain ⟨s', hadd, hinfo, hshape'⟩ := Timers.shape_add (hshape.setInfo timer i) ht (hlen.trans hfuel)
  refine ⟨s', hadd, fun hwindow =>
    ⟨insertBefore ((s.setInfo timer i).firesBefore timer) timer (xs.erase timer), ?_, ?_⟩⟩
  · rw [← starting_stopping w timer s] at hwindow ⊢
    exact linked_starting hstopped ht (fun t hne => update_of_ne hne ..) hinfo hshape' hwindow
  · rw [insertBefore_perm.length_eq]
    exact Nat.succ_le_succ hlen

end Linked

/-! ## 5. Steps -/

section Steps

variable {w w' : TimerWorld κ} {xs : List Nat} {fuel : Nat}

/-- What a step leaves: a timer list again, if the fire times still lie in one window. -/
def Leaves (xs : List Nat) (w' : TimerWorld κ) : Prop :=
  w'.OneWindow → ∃ xs', Linked w' xs' ∧ xs'.length ≤ xs.length + 1

theorem leaves_stopping {timer : Nat} {s : Timers κ} (h : Linked w xs) (hinfo : s.info = w.timers.info)
    (hshape : s.Shape (xs.erase timer)) : Leaves xs (w.stopping timer s) := fun _ =>
  ⟨xs.erase timer, linked_stopping h hinfo hshape, erase_sublist.length_le.trans (Nat.le_succ xs.length)⟩

variable (h : Linked w xs) (hfuel : xs.length ≤ fuel)

include h hfuel

theorem linked_schedule (timer : Nat) (interval : Time32)
    (callback : κ) (type : TimerType) (now : Time32) :
    ∃ w', w.step fuel (.call (.schedule timer interval callback type now)) = some (w', none) ∧ Leaves xs w' := by
  obtain ⟨s, hremove, hinfo, hshape⟩ := Timers.shape_remove h.shape hfuel timer
  rw [step, Timers.schedule, hremove, bind_some]
  by_cases hpos : interval.toInt > 0
  · obtain ⟨s', hadd, hleaves⟩ := linked_restart h hinfo hshape hfuel ⟨interval + now, interval, callback, type⟩
    rw [if_pos hpos, hadd, map_some, if_pos hpos]
    exact ⟨_, rfl, hleaves⟩
  · rw [if_neg hpos, map_some, if_neg hpos]
    exact ⟨_, rfl, leaves_stopping h hinfo hshape⟩

theorem linked_cancel (timer : Nat) :
    ∃ w', w.step fuel (.call (.cancel timer)) = some (w', none) ∧ Leaves xs w' := by
  obtain ⟨s, hremove, hinfo, hshape⟩ := Timers.shape_remove h.shape hfuel timer
  rw [step, Timers.cancel, hremove]
  exact ⟨_, rfl, leaves_stopping h hinfo hshape⟩

theorem linked_round (now later : Time32) :
    ∃ w' r, w.step fuel (.round now later) = some (w', r) ∧ Leaves xs w' ∧
      ∀ timer callback, r = some (timer, callback) → timer ∈ xs := by
  have hnothing : Leaves xs w := fun _ => ⟨xs, h, Nat.le_succ xs.length⟩
  rw [step, Timers.processRound]
  cases xs with
  | nil =>
    have hmarker : w.timers.listHead = .marker := h.shape.chain
    rw [hmarker]
    exact ⟨_, _, rfl, hnothing, fun _ _ hnone => absurd hnone (by simp)⟩
  | cons x xs =>
    rw [h.shape.chain.1]
    by_cases hexpired : w.timers.isExpired x now
    · have hpop : (w.timers.popHead x).Shape ((x :: xs).erase x) := by
        rw [erase_cons_head]
        exact Timers.shape_popHead h.shape
      have hhead : ∀ timer callback, some (x, (w.timers.info x).callback) = some (timer, callback) →
          timer ∈ x :: xs := by
        intro timer callback heq
        obtain ⟨rfl, -⟩ := Prod.mk.inj (some.inj heq)
        exact mem_cons_self
      cases hrestart : w.timers.restart x later with
      | none =>
        have htype : (w.timers.info x).type = .oneShot := by
          rw [Timers.restart] at hrestart
          split at hrestart
          · assumption
          · cases hrestart
          · cases hrestart
        simp only [hexpired, if_true, hrestart, map_some, htype]
        exact ⟨_, _, rfl, leaves_stopping h rfl hpop, hhead⟩
      | some i =>
        have htype : (w.timers.info x).type ≠ .oneShot := by
          intro hone
          rw [Timers.restart, hone] at hrestart
          cases hrestart
        have hinfo : (w.timers.popHead x).info = w.timers.info := rfl
        obtain ⟨s', hadd, hleaves⟩ := linked_restart h hinfo hpop hfuel i
        simp only [hexpired, if_true, hrestart, hadd, map_some, htype]
        exact ⟨_, _, rfl, hleaves, hhead⟩
    · simp only [hexpired]
      exact ⟨_, _, rfl, hnothing, fun _ _ hnone => absurd hnone (by simp)⟩

/-- **Every step**: it ends, leaves a timer list, and invokes no callback but that of a running timer. -/
theorem linked_step (op : TimerOp κ) :
    ∃ w' r, w.step fuel op = some (w', r) ∧ Leaves xs w' ∧
      ∀ timer callback, r = some (timer, callback) → (w.started timer).isSome := by
  cases op with
  | call c =>
    cases c with
    | schedule timer interval callback type now =>
      obtain ⟨w', hstep, hleaves⟩ := linked_schedule h hfuel timer interval callback type now
      exact ⟨w', none, hstep, hleaves, fun _ _ hnone => absurd hnone (by simp)⟩
    | cancel timer =>
      obtain ⟨w', hstep, hleaves⟩ := linked_cancel h hfuel timer
      exact ⟨w', none, hstep, hleaves, fun _ _ hnone => absurd hnone (by simp)⟩
  | round now later =>
    obtain ⟨w', r, hstep, hleaves, hrunning⟩ := linked_round h hfuel now later
    exact ⟨w', r, hstep, hleaves, fun t cb hr => (h.running t).mp (hrunning t cb hr)⟩

end Steps

/-! ## 6. Runs -/

section Runs

variable {w w' : TimerWorld κ} {fuel : Nat} {info : Nat → TimerInfo κ} {ops : List (TimerOp κ)}

theorem run_concat (w : TimerWorld κ) (ops : List (TimerOp κ)) (op : TimerOp κ) :
    w.run fuel (ops ++ [op]) = (w.run fuel ops).bind fun w' => (w'.step fuel op).map Prod.fst := by
  rw [run, foldlM_append]
  refine congrArg (bind _) (funext fun w' => ?_)
  rw [foldlM_cons]
  cases w'.step fuel op <;> rfl

/-- At every moment of the run, the fire times of the running timers lie in one window. -/
def Windows (fuel : Nat) (info : Nat → TimerInfo κ) (ops : List (TimerOp κ)) : Prop :=
  ∀ pre, pre <+: ops → ∀ w, (new info).run fuel pre = some w → w.OneWindow

/-- **The timer list along a run.** -/
theorem linked_run (hfuel : ops.length ≤ fuel) (hwindows : Windows fuel info ops) :
    ∃ w, (new info).run fuel ops = some w ∧ ∃ xs, Linked w xs ∧ xs.length ≤ ops.length := by
  induction ops using reverseRecOn with
  | nil => exact ⟨new info, rfl, [], linked_new info, Nat.le_refl 0⟩
  | append_singleton ops op ih =>
    rw [length_append] at hfuel
    have hpre : ops <+: ops ++ [op] := prefix_append ops [op]
    obtain ⟨w, hrun, xs, hlinked, hlen⟩ :=
      ih (Nat.le_of_succ_le hfuel) fun pre hpre' => hwindows pre (hpre'.trans hpre)
    obtain ⟨w', r, hstep, hleaves, -⟩ := linked_step hlinked (hlen.trans (Nat.le_of_succ_le hfuel)) op
    have hrun' : (new info).run fuel (ops ++ [op]) = some w' := by
      rw [run_concat, hrun, bind_some, hstep, map_some]
    obtain ⟨xs', hlinked', hlen'⟩ := hleaves (hwindows _ (prefix_refl _) w' hrun')
    refine ⟨w', hrun', xs', hlinked', hlen'.trans ?_⟩
    rw [length_append]
    exact Nat.succ_le_succ hlen

/-- No operation but a `schedule` starts a timer that does not run and is not invoked. -/
theorem started_step {op : TimerOp κ} {r : Option (Nat × κ)} {timer : Nat} (hstep : w.step fuel op = some (w', r))
    (hno : ∀ interval callback type now, op ≠ .call (.schedule timer interval callback type now))
    (hr : ∀ callback, r ≠ some (timer, callback)) (hstopped : w.started timer = none) :
    w'.started timer = none := by
  have hother : ∀ (u : Nat) (s : Timers κ), timer ≠ u → (w.starting u s).started timer = none ∧
      (w.stopping u s).started timer = none := fun u s hne =>
    ⟨(update_of_ne hne ..).trans hstopped, (update_of_ne hne ..).trans hstopped⟩
  cases op with
  | call c =>
    cases c with
    | schedule u interval callback type now =>
      obtain ⟨s, -, heq⟩ := map_eq_some_iff.mp hstep
      obtain ⟨rfl, -⟩ := Prod.mk.inj heq
      have hne : timer ≠ u := fun e => hno interval callback type now (by rw [e])
      split
      · exact (hother u s hne).1
      · exact (hother u s hne).2
    | cancel u =>
      obtain ⟨s, -, heq⟩ := map_eq_some_iff.mp hstep
      obtain ⟨rfl, -⟩ := Prod.mk.inj heq
      by_cases hu : timer = u
      · rw [hu]
        exact update_self ..
      · exact (hother u s hu).2
  | round now later =>
    obtain ⟨⟨s, o⟩, -, heq⟩ := map_eq_some_iff.mp hstep
    cases o with
    | none =>
      obtain ⟨rfl, -⟩ := Prod.mk.inj heq
      exact hstopped
    | some invoked =>
      obtain ⟨u, callback⟩ := invoked
      obtain ⟨rfl, rfl⟩ := Prod.mk.inj heq
      have hne : timer ≠ u := fun e => hr callback (by rw [e])
      dsimp only
      split
      · exact (hother u s hne).2
      · exact (hother u s hne).1

/-- A timer that was cancelled and not scheduled since does not run. -/
theorem stopped_since (hfuel : ops.length ≤ fuel) (hwindows : Windows fuel info ops)
    {before since : List (TimerOp κ)} {timer : Nat} (hpre : before ++ .call (.cancel timer) :: since <+: ops)
    (hno : ∀ interval callback type now, .call (.schedule timer interval callback type now) ∉ since)
    (hrun : (new info).run fuel (before ++ .call (.cancel timer) :: since) = some w) :
    w.started timer = none := by
  induction since using reverseRecOn generalizing w with
  | nil =>
    rw [run_concat] at hrun
    obtain ⟨w₀, -, hfst⟩ := bind_eq_some_iff.mp hrun
    obtain ⟨r, hstep, rfl⟩ := map_eq_some_iff.mp hfst
    obtain ⟨s, -, rfl⟩ := map_eq_some_iff.mp hstep
    exact update_self ..
  | append_singleton since op ih =>
    rw [← cons_append, ← append_assoc] at hpre hrun
    have hshort : before ++ .call (.cancel timer) :: since <+: ops := (prefix_append _ [op]).trans hpre
    rw [run_concat] at hrun
    obtain ⟨w₀, hrun₀, hfst⟩ := bind_eq_some_iff.mp hrun
    obtain ⟨⟨w₁, r⟩, hstep, rfl⟩ := map_eq_some_iff.mp hfst
    have hstopped := ih hshort (fun i c t n hmem => hno i c t n (mem_append_left _ hmem)) hrun₀
    refine started_step hstep (fun i c t n heq => hno i c t n ?_) (fun callback hr => ?_) hstopped
    · exact mem_append_right since (heq ▸ mem_singleton_self op)
    · obtain ⟨w₂, hrun₂, xs, hlinked, hlen⟩ := linked_run (hshort.length_le.trans hfuel)
        fun pre hpre' => hwindows pre (hpre'.trans hshort)
      obtain rfl := some.inj (hrun₀.symm.trans hrun₂)
      obtain ⟨w₃, r', hstep', -, hrunning⟩ :=
        linked_step hlinked (hlen.trans (hshort.length_le.trans hfuel)) op
      obtain ⟨-, rfl⟩ := Prod.mk.inj (some.inj (hstep.symm.trans hstep'))
      have hsome := hrunning timer callback hr
      rw [hstopped] at hsome
      exact absurd hsome Bool.false_ne_true

end Runs

end TimerWorld

/-- **The timer list along every run**: it ends, is in order, and holds the running timers and no others; and
    a cancelled timer has its callback not invoked. -/
theorem timer_list_sound {κ : Type} (info : Nat → TimerInfo κ) (ops : List (TimerOp κ)) (fuel : Nat)
    (hfuel : ops.length ≤ fuel) (hwindows : TimerWorld.Windows fuel info ops) :
    (∃ w xs, (TimerWorld.new info).run fuel ops = some w ∧ w.Linked xs) ∧
    ∀ before since after op timer, ops = before ++ .call (.cancel timer) :: (since ++ op :: after) →
      (∀ interval callback type now, .call (.schedule timer interval callback type now) ∉ since) →
      ∃ w, (TimerWorld.new info).run fuel (before ++ .call (.cancel timer) :: since) = some w ∧
        ∀ w' callback, w.step fuel op ≠ some (w', some (timer, callback)) := by
  refine ⟨?_, fun before since after op timer hops hno => ?_⟩
  · obtain ⟨w, hrun, xs, hlinked, -⟩ := TimerWorld.linked_run hfuel hwindows
    exact ⟨w, xs, hrun, hlinked⟩
  · have hpre : before ++ .call (.cancel timer) :: since <+: ops := by
      refine ⟨op :: after, ?_⟩
      rw [hops, append_assoc, cons_append]
    have hshort := hpre.length_le.trans hfuel
    obtain ⟨w, hrun, xs, hlinked, hlen⟩ := TimerWorld.linked_run hshort
      fun pre hpre' => hwindows pre (hpre'.trans hpre)
    refine ⟨w, hrun, fun w' callback hstep => ?_⟩
    obtain ⟨w'', r, hstep', -, hrunning⟩ := TimerWorld.linked_step hlinked (hlen.trans hshort) op
    obtain ⟨-, rfl⟩ := Prod.mk.inj (some.inj (hstep.symm.trans hstep'))
    have hsome := hrunning timer callback rfl
    rw [TimerWorld.stopped_since hfuel hwindows hpre hno hrun] at hsome
    exact absurd hsome Bool.false_ne_true

/-- A periodic timer, one that fires at the same time and is cancelled, and a round of `process`. -/
def twoAlarms : List (TimerOp Unit) :=
  [.call (.schedule 0 10 () .periodicFixedRate 0), .call (.schedule 1 10 () .oneShot 0), .call (.cancel 1),
    .round 15 15]

theorem twoAlarms_windows : TimerWorld.Windows 4 (fun _ => ⟨0, 0, (), .oneShot⟩) twoAlarms := by
  intro pre hpre w hrun
  have hlen : pre.length ≤ 4 := hpre.length_le
  rw [prefix_iff_eq_take.mp hpre] at hrun
  refine ⟨0, fun t _ => ?_⟩
  have hfire : ∀ n ≤ 4, ∀ w', (TimerWorld.new fun _ => ⟨0, 0, (), .oneShot⟩).run 4 (twoAlarms.take n) = some w' →
      Time32.InWindow 0 (w'.timers.fireTime t) := by
    intro n hn w' hrun'
    rcases n with _ | _ | _ | _ | _ | n
    all_goals try omega
    all_goals
      obtain rfl := some.inj hrun'
      rcases t with _ | _ | t
      · decide
      · decide
      · exact (by decide : Time32.InWindow 0 0)
  exact hfire pre.length hlen w hrun

theorem timer_list_sound_twoAlarms :
    (∃ w xs, (TimerWorld.new fun _ => ⟨0, 0, (), .oneShot⟩).run 4 twoAlarms = some w ∧ w.Linked xs) ∧
    ∀ before since after op timer, twoAlarms = before ++ .call (.cancel timer) :: (since ++ op :: after) →
      (∀ interval callback type now, .call (.schedule timer interval callback type now) ∉ since) →
      ∃ w, (TimerWorld.new fun _ => ⟨0, 0, (), .oneShot⟩).run 4 (before ++ .call (.cancel timer) :: since) = some w ∧
        ∀ w' callback, w.step 4 op ≠ some (w', some (timer, callback)) :=
  timer_list_sound _ twoAlarms 4 (Nat.le_refl 4) twoAlarms_windows

/-! ## 7. `process` -/

namespace TimerWorld

variable {κ : Type}
variable {fuel : Nat} {s : Timers κ}

theorem step_call_timers (w : TimerWorld κ) (c : TimerCall κ) :
    (w.step fuel (.call c)).map (fun r => r.1.timers) = w.timers.call fuel c := by
  cases c with
  | schedule timer interval callback type now =>
    rw [step, Timers.call]
    cases w.timers.schedule fuel timer interval callback type now with
    | none => rfl
    | some s =>
      show some _ = some s
      split <;> rfl
  | cancel timer =>
    rw [step, Option.map_map]
    exact map_id'

theorem calls_are_run (w : TimerWorld κ) (cs : List (TimerCall κ))
    (h : cs.foldlM (Timers.call fuel) w.timers = some s) :
    ∃ w', w.run fuel (cs.map .call) = some w' ∧ w'.timers = s := by
  induction cs generalizing w with
  | nil => exact ⟨w, rfl, some.inj h⟩
  | cons c cs ih =>
    rw [foldlM_cons, ← step_call_timers] at h
    obtain ⟨s₀, hcall, hrest⟩ := bind_eq_some_iff.mp h
    obtain ⟨⟨w₀, r⟩, hstep, rfl⟩ := map_eq_some_iff.mp hcall
    obtain ⟨w', hrun, hs⟩ := ih w₀ hrest
    refine ⟨w', ?_, hs⟩
    rw [run, map_cons, foldlM_cons, hstep]
    exact hrun

theorem run_append (w : TimerWorld κ) (ops ops' : List (TimerOp κ)) :
    w.run fuel (ops ++ ops') = (w.run fuel ops).bind fun w' => w'.run fuel ops' :=
  foldlM_append ..

/-- **A whole `process` is a run**: rounds, and between them what the callbacks do. -/
theorem process_is_run (body : Timers κ → Nat → κ → List (TimerCall κ))
    (clock : Nat → Time32 × Time32) (rounds : Nat) (w : TimerWorld κ)
    (h : w.timers.process fuel body clock rounds = some s) :
    ∃ ops w', w.run fuel ops = some w' ∧ w'.timers = s := by
  induction rounds generalizing w with
  | zero => cases h
  | succ rounds ih =>
    rw [Timers.process] at h
    cases hround : w.timers.processRound fuel (clock rounds).1 (clock rounds).2 with
    | none =>
      rw [hround] at h
      cases h
    | some r =>
      obtain ⟨s₀, o⟩ := r
      rw [hround] at h
      cases o with
      | none =>
        obtain rfl := some.inj h
        refine ⟨[.round (clock rounds).1 (clock rounds).2], { w with timers := s₀ }, ?_, rfl⟩
        rw [run, foldlM_cons, step, hround]
        rfl
      | some invoked =>
        obtain ⟨timer, callback⟩ := invoked
        have hstep : ∃ w₀, w.run fuel [.round (clock rounds).1 (clock rounds).2] = some w₀ ∧ w₀.timers = s₀ := by
          rw [run, foldlM_cons, step, hround]
          refine ⟨_, rfl, ?_⟩
          dsimp only
          split <;> rfl
        obtain ⟨w₀, hrun₀, rfl⟩ := hstep
        obtain ⟨s₁, hcalls, hrest⟩ := bind_eq_some_iff.mp h
        obtain ⟨w₁, hrun₁, rfl⟩ := calls_are_run w₀ _ hcalls
        obtain ⟨ops, w', hrun', hs⟩ := ih w₁ hrest
        refine ⟨[.round (clock rounds).1 (clock rounds).2] ++ ((body w₀.timers timer callback).map .call ++ ops),
          w', ?_, hs⟩
        rw [run_append, hrun₀, bind_some, run_append, hrun₁, bind_some, hrun']

end TimerWorld

end DcuDaemon.Util
