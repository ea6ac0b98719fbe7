/-
  The callback timers of the gateway library (`gateway_common/src/timer_cb.c`): a list in the order of
  expiry, and a thread that serves its head.

  Times are 32 bits of a clock that does not stop, and are compared by the sign of their difference. The
  list is not locked while a callback runs, nor just before: a timer that the thread has taken from the
  list can be destroyed before its callback is called.

  Main result: `timer_cb_sound_iff`.
-/
import DcuDaemon.Lib.Chain
import DcuDaemon.Lib.Run
import DcuDaemon.Lib.WrapTime

namespace DcuDaemon.Gateway

open Lib List Option Function

/-! ## 1. The timers -/

/-- `struct timer_cb_details`, without name, callback and cookie. -/
structure TimerDetails where
  expireTime : Time32
  periodic : Bool
  period : Time32

inductive TimerThread where
  /-- The thread looks at the list, or sleeps. -/
  | idle
  /-- It has taken a timer from the list and unlocked it; the callback comes next. -/
  | picked (timer : Nat)
  /-- The callback runs. -/
  | calling
  deriving DecidableEq

/-- The timers, by number; and the true clock, when they expire by it, and when a callback may be invoked. -/
structure TimerService where
  timers : Nat → Option TimerDetails
  activeList : List Nat
  inService : Option Nat
  thread : TimerThread
  nextId : Nat
  clock : Nat
  expiry : Nat → Nat
  earliest : Nat → Nat

namespace TimerService

def new (clock : Nat) : TimerService := ⟨fun _ => none, [], none, .idle, 0, clock, fun _ => 0, fun _ => 0⟩

variable (s : TimerService)

/-- `TIMER_getNow`. -/
def getNow : Time32 := BitVec.ofNat 32 s.clock

def expireTime (timer : Nat) : Time32 :=
  match s.timers timer with
  | none => 0
  | some d => d.expireTime

/-- `_timer_insert`: in front of the first timer that does not expire before. -/
def insert (timer : Nat) (d : TimerDetails) (earliest : Nat) : TimerService :=
  let expire := s.getNow + d.period
  { s with
    timers := update s.timers timer (some { d with expireTime := expire })
    activeList := insertBefore (fun x => decide ((expire - s.expireTime x).toInt ≤ 0)) timer s.activeList
    expiry := update s.expiry timer (s.clock + d.period.toNat)
    earliest := update s.earliest timer earliest }

/-- `TIMER_CB_create`; a period of 0 is made 1. -/
def create (period : Time32) (periodic : Bool) : TimerService :=
  insert { s with nextId := s.nextId + 1 } s.nextId ⟨0, periodic, if period = 0 then 1 else period⟩
    (s.clock + period.toNat)

/-- `TIMER_CB_destroy`; what is not a timer is left alone. -/
def destroy (timer : Nat) : TimerService :=
  match s.timers timer with
  | none => s
  | some _ =>
    { s with
      inService := if s.inService = some timer then none else s.inService
      activeList := s.activeList.erase timer
      timers := update s.timers timer none }

def expired (timer : Nat) : Bool := decide ((s.expireTime timer - s.getNow).toInt ≤ 0)

/-- The loop of the timer thread, from one unlock to the next. -/
def service : TimerService :=
  match s.thread with
  | .idle =>
    match s.activeList with
    | [] => s
    | timer :: rest =>
      if s.expired timer then { s with activeList := rest, inService := some timer, thread := .picked timer }
      else s
  | .picked _ => { s with thread := .calling }
  | .calling =>
    let s' := { s with inService := none, thread := .idle }
    match s.inService with
    | none => s'
    | some timer =>
      match s.timers timer with
      | none => s'
      | some d => if d.periodic then s'.insert timer d (s.expiry timer + d.period.toNat) else s'

/-- What happens, some time after what happened before. -/
inductive TimerEvent where
  | create (period : Time32) (periodic : Bool)
  | destroy (timer : Nat)
  | service

def tick (dt : Nat) : TimerService := { s with clock := s.clock + dt }

def act : TimerEvent → TimerService
  | .create period periodic => s.create period periodic
  | .destroy timer => s.destroy timer
  | .service => s.service

def step (e : Nat × TimerEvent) : TimerService := (s.tick e.1).act e.2

/-- The timer whose callback is invoked in this step. -/
def invoked : TimerEvent → Option Nat
  | .service =>
    match s.thread with
    | .picked timer => some timer
    | _ => none
  | _ => none

/-! ## 2. What is asked of a step -/

/-- **A step is sound**: no callback is early or of a destroyed timer; the list is in order and without
    destroyed timers. -/
structure StepSound (s : TimerService) (e : Nat × TimerEvent) : Prop where
  notEarly : ∀ timer, s.invoked e.2 = some timer → s.earliest timer ≤ s.clock + e.1
  notDestroyed : ∀ timer, s.invoked e.2 = some timer → (s.timers timer).isSome = true
  sorted : (s.step e).activeList.Pairwise fun x y => (s.step e).expiry x ≤ (s.step e).expiry y
  listed : ∀ timer ∈ (s.step e).activeList, ((s.step e).timers timer).isSome = true

def Inserts : TimerEvent → Prop
  | .create _ _ => True
  | .destroy _ => False
  | .service => s.thread = .calling ∧ ∃ t d, s.inService = some t ∧ s.timers t = some d ∧ d.periodic = true

/-- The class of steps: small advances, periods of at most `P`, a head at most `L` late at insertions, and
    without `race` no timer destroyed before its callback. -/
structure InClass (P L : Nat) (race : Bool) (s : TimerService) (e : Nat × TimerEvent) : Prop where
  clock : e.1 < 2 ^ 31
  period : ∀ period periodic, e.2 = .create period periodic → period.toNat ≤ P
  late : s.Inserts e.2 → ∀ timer ∈ s.activeList.head?, s.clock + e.1 ≤ s.expiry timer + L
  noRace : race = false → ∀ timer, e.2 = .destroy timer → s.thread ≠ .picked timer

/-! ## 3. The invariant -/

/-- What holds between the steps, for periods of at most `B`. -/
structure Good (B : Nat) (s : TimerService) : Prop where
  active : ∀ t ∈ s.activeList, ∃ d, s.timers t = some d ∧ d.expireTime = BitVec.ofNat 32 (s.expiry t)
  near : ∀ t ∈ s.activeList, s.expiry t ≤ s.clock + B
  earliest : ∀ t, s.earliest t ≤ s.expiry t
  sorted : s.activeList.Pairwise fun x y => s.expiry x ≤ s.expiry y
  nodup : s.activeList.Nodup
  known : ∀ t d, s.timers t = some d → t < s.nextId ∧ 1 ≤ d.period.toNat ∧ d.period.toNat ≤ B
  serving : ∀ t, s.inService = some t → (s.timers t).isSome = true ∧ t ∉ s.activeList ∧ s.expiry t ≤ s.clock
  picked : ∀ t, s.thread = .picked t → s.inService = some t

section Good

variable {B L : Nat} {s : TimerService} {timer : Nat} {d : TimerDetails}

theorem good_new (B clock : Nat) : Good B (new clock) where
  active := fun _ h => absurd h not_mem_nil
  near := fun _ h => absurd h not_mem_nil
  earliest := fun _ => Nat.le_refl 0
  sorted := List.Pairwise.nil
  nodup := nodup_nil
  known := fun _ _ h => absurd h (by simp [new])
  serving := fun _ h => absurd h (by simp [new])
  picked := fun _ h => absurd h (by simp [new])

theorem good_tick (h : Good B s) (dt : Nat) : Good B (s.tick dt) where
  active := h.active
  near := fun t ht => (h.near t ht).trans (Nat.add_le_add_right (Nat.le_add_right _ dt) B)
  earliest := h.earliest
  sorted := h.sorted
  nodup := h.nodup
  known := h.known
  serving := fun t ht =>
    ⟨(h.serving t ht).1, (h.serving t ht).2.1, (h.serving t ht).2.2.trans (Nat.le_add_right _ dt)⟩
  picked := h.picked

theorem Good.late (h : Good B s) (hlate : ∀ t ∈ s.activeList.head?, s.clock ≤ s.expiry t + L) :
    ∀ t ∈ s.activeList, s.clock ≤ s.expiry t + L := by
  have hsorted := h.sorted
  cases hlist : s.activeList with
  | nil => exact fun t ht => absurd ht not_mem_nil
  | cons x xs =>
    rw [hlist] at hlate hsorted
    intro t ht
    have hx := hlate x rfl
    rcases mem_cons.mp ht with rfl | ht
    · exact hx
    · exact hx.trans (Nat.add_le_add_right ((pairwise_cons.mp hsorted).1 t ht) L)

/-- **An insertion keeps the order**, where the times that are compared are near each other. -/
theorem good_insert (h : Good B s) (hlate : ∀ t ∈ s.activeList.head?, s.clock ≤ s.expiry t + L)
    (hsmall : B + L < 2 ^ 31) (hnot : timer ∉ s.activeList) (hservice : s.inService ≠ some timer)
    (hid : timer < s.nextId) (hperiod : 1 ≤ d.period.toNat ∧ d.period.toNat ≤ B) {earliest : Nat}
    (hearliest : earliest ≤ s.clock + d.period.toNat) : Good B (s.insert timer d earliest) := by
  have hlate := h.late hlate
  have hself : (s.insert timer d earliest).expiry timer = s.clock + d.period.toNat := update_self ..
  have hother : ∀ t ≠ timer, (s.insert timer d earliest).expiry t = s.expiry t := fun t hne =>
    update_of_ne hne ..
  have hdetails : ∀ t ≠ timer, (s.insert timer d earliest).timers t = s.timers t := fun t hne =>
    update_of_ne hne ..
  have hmem : ∀ t, t ∈ (s.insert timer d earliest).activeList ↔ t = timer ∨ t ∈ s.activeList := fun t =>
    insertBefore_perm.mem_iff.trans mem_cons
  have hexpire : s.getNow + d.period = BitVec.ofNat 32 (s.clock + d.period.toNat) := by
    rw [getNow, BitVec.ofNat_add, BitVec.ofNat_toNat, BitVec.setWidth_eq]
  have htest : ∀ x ∈ s.activeList, (s.getNow + d.period - s.expireTime x).toInt =
      ((s.clock + d.period.toNat : Nat) : Int) - s.expiry x := by
    intro x hx
    obtain ⟨dx, hdx, htime⟩ := h.active x hx
    have hbehind := hlate x hx
    have hnear := h.near x hx
    rw [hexpire, expireTime, hdx]
    show (BitVec.ofNat 32 _ - dx.expireTime).toInt = _
    rw [htime]
    exact Time32.toInt_ofNat_sub (by omega) (by omega)
  have hne : ∀ x ∈ s.activeList, x ≠ timer := fun x hx => ne_of_mem_of_not_mem hx hnot
  refine ⟨fun t ht => ?_, fun t ht => ?_, fun t => ?_, ?_, ?_, fun t dt ht => ?_, fun t ht => ?_, h.picked⟩
  · rcases (hmem t).mp ht with rfl | ht
    · exact ⟨_, update_self .., by rw [hself]; exact hexpire⟩
    · rw [hdetails t (hne t ht), hother t (hne t ht)]
      exact h.active t ht
  · rcases (hmem t).mp ht with rfl | ht
    · rw [hself]
      exact Nat.add_le_add_left hperiod.2 _
    · rw [hother t (hne t ht)]
      exact h.near t ht
  · show update s.earliest timer earliest t ≤ _
    by_cases heq : t = timer
    · rw [heq, hself, update_self]
      exact hearliest
    · rw [hother t heq, update_of_ne heq]
      exact h.earliest t
  · have hkept : s.activeList.Pairwise fun x y =>
        (s.insert timer d earliest).expiry x ≤ (s.insert timer d earliest).expiry y :=
      h.sorted.imp_of_mem fun hx hy hle => by rwa [hother _ (hne _ hx), hother _ (hne _ hy)]
    refine pairwise_insertBefore hkept (fun x hx hbefore => ?_) (fun x hx hbefore => ?_)
      fun x _ y _ => le_trans
    · rw [hother x (hne x hx)]
      have hle := of_decide_eq_true hbefore
      rw [htest x hx] at hle
      omega
    · rw [hother x (hne x hx)]
      have hgt := of_decide_eq_false hbefore
      rw [htest x hx] at hgt
      omega
  · exact insertBefore_perm.nodup_iff.mpr (nodup_cons.mpr ⟨hnot, h.nodup⟩)
  · by_cases heq : t = timer
    · have hd : (s.insert timer d earliest).timers timer =
          some { d with expireTime := s.getNow + d.period } := update_self ..
      obtain rfl := some.inj (hd.symm.trans (heq ▸ ht))
      exact ⟨heq ▸ hid, hperiod⟩
    · exact h.known t dt ((hdetails t heq).symm.trans ht)
  · have heq : t ≠ timer := fun e => hservice (e ▸ ht)
    obtain ⟨halive, hout, hpast⟩ := h.serving t ht
    rw [hdetails t heq, hother t heq, hmem]
    exact ⟨halive, fun hin => hin.elim heq hout, hpast⟩

theorem good_create (h : Good B s) (hlate : ∀ t ∈ s.activeList.head?, s.clock ≤ s.expiry t + L)
    (hsmall : B + L < 2 ^ 31) {period : Time32} (hB : 1 ≤ B) (hperiod : period.toNat ≤ B) (periodic : Bool) :
    Good B (s.create period periodic) := by
  have hfresh : s.timers s.nextId = none := by
    cases hd : s.timers s.nextId with
    | none => rfl
    | some d => exact absurd (h.known _ d hd).1 (Nat.lt_irrefl _)
  have hnext : Good B { s with nextId := s.nextId + 1 } :=
    ⟨h.active, h.near, h.earliest, h.sorted, h.nodup,
      fun t d hd => ⟨Nat.lt_succ_of_lt (h.known t d hd).1, (h.known t d hd).2⟩, h.serving, h.picked⟩
  have hactual : 1 ≤ (if period = 0 then (1 : Time32) else period).toNat ∧
      (if period = 0 then (1 : Time32) else period).toNat ≤ B ∧
      period.toNat ≤ (if period = 0 then (1 : Time32) else period).toNat := by
    split
    · rename_i hzero
      rw [hzero]
      exact ⟨by decide, hB, by decide⟩
    · rename_i hzero
      have hpos : period.toNat ≠ 0 := fun e => hzero (BitVec.eq_of_toNat_eq e)
      exact ⟨Nat.one_le_iff_ne_zero.mpr hpos, hperiod, Nat.le_refl _⟩
  refine good_insert hnext hlate hsmall (fun hmem => ?_) (fun hin => ?_) (Nat.lt_succ_self _)
    ⟨hactual.1, hactual.2.1⟩ (Nat.add_le_add_left hactual.2.2 _)
  · obtain ⟨d, hd, -⟩ := h.active _ hmem
    rw [hfresh] at hd
    cases hd
  · have halive := (h.serving _ hin).1
    rw [hfresh] at halive
    exact absurd halive Bool.false_ne_true

theorem good_destroy (h : Good B s) (hrace : s.thread ≠ .picked timer) : Good B (s.destroy timer) := by
  unfold destroy
  cases s.timers timer with
  | none => exact h
  | some _ =>
    have hsub : (s.activeList.erase timer).Sublist s.activeList := erase_sublist
    have hother : ∀ t ≠ timer, update s.timers timer none t = s.timers t := fun t hne =>
      update_of_ne hne ..
    have hleft : ∀ t ∈ s.activeList.erase timer, t ≠ timer ∧ t ∈ s.activeList := fun t ht =>
      h.nodup.mem_erase_iff.mp ht
    refine ⟨fun t ht => ?_, fun t ht => h.near t (hsub.mem ht), h.earliest, h.sorted.sublist hsub,
      h.nodup.sublist hsub, fun t d ht => ?_, fun t ht => ?_, fun t ht => ?_⟩
    · show ∃ d, update s.timers timer none t = some d ∧ _
      rw [hother t (hleft t ht).1]
      exact h.active t (hleft t ht).2
    · have hne : t ≠ timer := by
        rintro rfl
        cases (update_self ..).symm.trans ht
      exact h.known t d ((hother t hne).symm.trans ht)
    · dsimp only at ht ⊢
      split at ht
      · cases ht
      · rename_i hnot
        have hne : t ≠ timer := fun e => hnot (e ▸ ht)
        obtain ⟨halive, hout, hpast⟩ := h.serving t ht
        rw [hother t hne]
        exact ⟨halive, fun hin => hout (hsub.mem hin), hpast⟩
    · have hin := h.picked t ht
      have hne : t ≠ timer := fun e => hrace (e ▸ ht)
      show (if s.inService = some timer then none else s.inService) = some t
      rw [hin, if_neg fun e => hne (some.inj e)]

theorem Good.expired_le (h : Good B s) (hB : B < 2 ^ 31) (hmem : timer ∈ s.activeList)
    (hexpired : s.expired timer) : s.expiry timer ≤ s.clock := by
  refine Classical.byContradiction fun hlt => ?_
  obtain ⟨d, hd, htime⟩ := h.active timer hmem
  have hnear := h.near timer hmem
  have hle := of_decide_eq_true hexpired
  rw [expireTime, hd] at hle
  have hdiff : (d.expireTime - s.getNow).toInt = (s.expiry timer : Int) - s.clock := by
    rw [htime]
    exact Time32.toInt_ofNat_sub (by omega) (by omega)
  have hle' : (d.expireTime - s.getNow).toInt ≤ 0 := hle
  rw [hdiff] at hle'
  omega

theorem good_service (h : Good B s) (hsmall : B + L < 2 ^ 31)
    (hlate : s.Inserts .service → ∀ t ∈ s.activeList.head?, s.clock ≤ s.expiry t + L) : Good B s.service := by
  unfold service
  cases hthread : s.thread with
  | idle =>
    cases hlist : s.activeList with
    | nil => exact h
    | cons x xs =>
      dsimp only
      split
      · rename_i hexpired
        have hmem : x ∈ s.activeList := hlist ▸ mem_cons_self
        have hsub : xs.Sublist s.activeList := hlist ▸ sublist_cons_self x xs
        have hout : x ∉ xs := (nodup_cons.mp (hlist ▸ h.nodup)).1
        obtain ⟨d, hd, -⟩ := h.active x hmem
        refine ⟨fun t ht => h.active t (hsub.mem ht), fun t ht => h.near t (hsub.mem ht), h.earliest,
          h.sorted.sublist hsub, h.nodup.sublist hsub, h.known, fun t ht => ?_, fun t ht => ?_⟩
        · obtain rfl := some.inj ht
          exact ⟨by rw [hd]; rfl, hout, h.expired_le (by omega) hmem hexpired⟩
        · obtain rfl := TimerThread.picked.inj ht
          rfl
      · exact h
  | picked t =>
    exact ⟨h.active, h.near, h.earliest, h.sorted, h.nodup, h.known, h.serving, fun _ ht => by cases ht⟩
  | calling =>
    have hdone : Good B { s with inService := none, thread := .idle } :=
      ⟨h.active, h.near, h.earliest, h.sorted, h.nodup, h.known, fun _ ht => (by cases ht),
        fun _ ht => (by cases ht)⟩
    dsimp only
    cases hin : s.inService with
    | none => exact hdone
    | some t =>
      dsimp only
      cases hd : s.timers t with
      | none => exact hdone
      | some d =>
        dsimp only
        split
        · rename_i hperiodic
          obtain ⟨-, hout, hpast⟩ := h.serving t hin
          have hlate := hlate ⟨hthread, t, d, hin, hd, hperiodic⟩
          exact good_insert hdone hlate hsmall hout (fun e => by cases e) (h.known t d hd).1 (h.known t d hd).2
            (Nat.add_le_add_right hpast _)
        · exact hdone

variable {P : Nat} {e : Nat × TimerEvent}

variable (h : Good (max 1 P) s) (hsmall : max 1 P + L < 2 ^ 31)

include h hsmall

/-- **Every step of the class keeps the invariant.** -/
theorem good_step (hclass : InClass P L false s e) : Good (max 1 P) (s.step e) := by
  obtain ⟨dt, e⟩ := e
  have htick := good_tick h dt
  cases e with
  | create period periodic =>
    exact good_create htick (hclass.late trivial) hsmall (Nat.le_max_left 1 P)
      ((hclass.period period periodic rfl).trans (Nat.le_max_right 1 P)) periodic
  | destroy timer => exact good_destroy htick (hclass.noRace rfl timer rfl)
  | service => exact good_service htick hsmall hclass.late

/-- **And is sound.** -/
theorem sound_step (hclass : InClass P L false s e) : StepSound s e := by
  have hafter := good_step h hsmall hclass
  have hserving : ∀ t, s.invoked e.2 = some t → s.inService = some t := by
    intro t ht
    refine h.picked t ?_
    obtain ⟨dt, e⟩ := e
    cases e with
    | create period periodic => cases ht
    | destroy timer => cases ht
    | service =>
      cases hthread : s.thread with
      | idle => rw [invoked, hthread] at ht; cases ht
      | calling => rw [invoked, hthread] at ht; cases ht
      | picked u =>
        rw [invoked, hthread] at ht
        rw [some.inj ht]
  refine ⟨fun t ht => ?_, fun t ht => (h.serving t (hserving t ht)).1, hafter.sorted, fun t ht => ?_⟩
  · exact (h.earliest t).trans ((h.serving t (hserving t ht)).2.2.trans (Nat.le_add_right _ _))
  · obtain ⟨d, hd, -⟩ := hafter.active t ht
    rw [hd]
    rfl

theorem sound_run {es : List (Nat × TimerEvent)}
    (hclass : Along step (InClass P L false) s es) : Along step StepSound s es := by
  refine (along_iff (fun s e hgood hin _ => good_step hgood hsmall hin) (fun s e hgood hin => ?_) h hclass).mpr
    (along_true s es)
  exact iff_true_intro (sound_step hgood hsmall hin)

end Good

/-! ## 4. Where it goes wrong -/

section Unsound

variable {P L dt : Nat} {race : Bool} {period : Time32} {s : TimerService}

theorem inClass_create (hdt : dt < 2 ^ 31) (hperiod : period.toNat ≤ P)
    (hlate : ∀ timer ∈ s.activeList.head?, s.clock + dt ≤ s.expiry timer + L) (periodic : Bool) :
    InClass P L race s (dt, .create period periodic) := by
  refine ⟨hdt, fun _ _ he => ?_, fun _ => hlate, fun _ _ he => (by cases he)⟩
  cases he
  exact hperiod

theorem inClass_service (hdt : dt < 2 ^ 31)
    (hlate : s.thread = .calling → ∀ timer ∈ s.activeList.head?, s.clock + dt ≤ s.expiry timer + L) :
    InClass P L race s (dt, .service) :=
  ⟨hdt, fun _ _ he => (by cases he), fun h => hlate h.1, fun _ _ he => (by cases he)⟩

theorem inClass_destroy {timer : Nat} (hdt : dt < 2 ^ 31)
    (hrace : race = false → s.thread ≠ .picked timer) : InClass P L race s (dt, .destroy timer) := by
  refine ⟨hdt, fun _ _ he => (by cases he), fun h => h.elim, fun hno _ he => ?_⟩
  cases he
  exact hrace hno

/-- A timer of period 1 is destroyed after the thread has taken it from the list. -/
def racing : List (Nat × TimerEvent) := [(0, .create 0 false), (1, .service), (0, .destroy 0), (0, .service)]

theorem racing_inClass (P L : Nat) : Along step (InClass P L true) (new 0) racing :=
  ⟨inClass_create (by decide) (Nat.zero_le P) (by simp [new]) false, inClass_service (by decide) nofun,
    inClass_destroy (by decide) nofun, inClass_service (by decide) nofun, trivial⟩

/-- **The callback of the destroyed timer is invoked.** -/
theorem racing_unsound : ¬ Along step StepSound (new 0) racing := by
  rintro ⟨-, -, -, hlast, -⟩
  exact absurd (hlast.notDestroyed 0 rfl) (by decide)

/-- A timer of 2^31 milliseconds, and two steps of the thread at once. -/
def longPeriod : List (Nat × TimerEvent) := [(0, .create (2 ^ 31) false), (0, .service), (0, .service)]

theorem longPeriod_inClass (hP : 2 ^ 31 ≤ P) (L : Nat) :
    Along step (InClass P L false) (new 0) longPeriod :=
  ⟨inClass_create (by decide) hP (by simp [new]) false, inClass_service (by decide) nofun,
    inClass_service (by decide) nofun, trivial⟩

/-- **Its callback is invoked when it is created.** -/
theorem longPeriod_unsound : ¬ Along step StepSound (new 0) longPeriod := by
  rintro ⟨-, -, hlast, -⟩
  exact absurd (hlast.notEarly 0 rfl) (by decide)

theorem actual_period (period : Time32) :
    (if period = 0 then (1 : Time32) else period).toNat = max 1 period.toNat := by
  split
  · rename_i hzero
    rw [hzero]
    rfl
  · rename_i hzero
    have hpos : period.toNat ≠ 0 := fun e => hzero (BitVec.eq_of_toNat_eq e)
    omega

/-- A timer that expires 2^31 after the only one in the list is put in front of it. -/
theorem create_unsorted {x : Nat} (hlist : s.activeList = [x]) (hx : x ≠ s.nextId)
    (htime : s.expireTime x = BitVec.ofNat 32 (s.expiry x))
    (hfar : s.clock + max 1 period.toNat = s.expiry x + 2 ^ 31) (periodic : Bool) :
    ¬ (s.create period periodic).activeList.Pairwise fun x y =>
      (s.create period periodic).expiry x ≤ (s.create period periodic).expiry y := by
  have hexpire : s.getNow + (if period = 0 then (1 : Time32) else period) =
      BitVec.ofNat 32 (s.expiry x) + BitVec.ofNat 32 (2 ^ 31) := by
    rw [← BitVec.ofNat_add, ← hfar, ← actual_period, BitVec.ofNat_add, BitVec.ofNat_toNat]
    rfl
  have hfront : (s.create period periodic).activeList = [s.nextId, x] := by
    show insertBefore _ s.nextId s.activeList = _
    rw [hlist, insertBefore, if_pos]
    refine decide_eq_true ?_
    show (s.getNow + (if period = 0 then (1 : Time32) else period) - s.expireTime x).toInt ≤ 0
    rw [hexpire, htime, BitVec.add_comm, BitVec.add_sub_cancel]
    decide
  have hnew : (s.create period periodic).expiry s.nextId = s.expiry x + 2 ^ 31 := by
    show update s.expiry s.nextId _ s.nextId = _
    rw [update_self, ← hfar, ← actual_period]
  have hold : (s.create period periodic).expiry x = s.expiry x := update_of_ne hx ..
  intro hsorted
  rw [hfront] at hsorted
  have hle := (pairwise_cons.mp hsorted).1 x mem_cons_self
  rw [hold] at hle
  omega

/-- A timer of 1 millisecond is `late` when another one is created. -/
def starving (late : Nat) (period : Time32) : List (Nat × TimerEvent) :=
  [(0, .create 0 false), (1, .destroy 1), (late, .create period false)]

theorem starving_inClass {late : Nat} (hlate : late < 2 ^ 31) (hL : late ≤ L)
    (hperiod : period.toNat ≤ P) : Along step (InClass P L false) (new 0) (starving late period) := by
  refine ⟨inClass_create (by decide) (Nat.zero_le P) (by simp [new]) false, inClass_destroy (by decide) fun _ => nofun,
    inClass_create hlate hperiod (fun t ht => ?_) false, trivial⟩
  cases ht
  exact Nat.add_le_add_left hL 1

/-- **The list is out of order then**, if lateness and period add up to 2^31. -/
theorem starving_unsound (late : Nat) (period : Time32) (hfar : late + max 1 period.toNat = 2 ^ 31) :
    ¬ Along step StepSound (new 0) (starving late period) := by
  rintro ⟨-, -, hlast, -⟩
  refine create_unsorted (s := tick (run step (new 0) [(0, .create 0 false), (1, .destroy 1)]) late)
    (x := 0) rfl Nat.zero_ne_one rfl ?_ false hlast.sorted
  show 1 + late + max 1 period.toNat = 1 + 2 ^ 31
  omega

end Unsound

/-- A timer of a minute and one of half a second, until the first one has expired once. -/
def minute : List (Nat × TimerEvent) :=
  [(0, .create 60000 true), (0, .create 500 false), (600, .service), (0, .service), (0, .service),
    (59400, .service), (0, .service), (0, .service), (0, .destroy 0)]

theorem minute_inClass : Along step (InClass 60000 1000 false) (new 0) minute :=
  ⟨inClass_create (by decide) (by decide) (by decide) true,
    inClass_create (by decide) (by decide) (by decide) false, inClass_service (by decide) (by decide),
    inClass_service (by decide) (by decide), inClass_service (by decide) (by decide),
    inClass_service (by decide) (by decide), inClass_service (by decide) (by decide),
    inClass_service (by decide) (by decide), inClass_destroy (by decide) (by decide), trivial⟩

end TimerService

/-- **The callback timers are sound exactly if times stay near each other**: if `P` (at least 1) and `L`
    together are below 2^31 and no timer is destroyed between the list and its callback. -/
theorem timer_cb_sound_iff (P L : Nat) (hP : P < 2 ^ 32) (race : Bool) :
    (∀ clock es, Along TimerService.step (TimerService.InClass P L race) (.new clock) es →
      Along TimerService.step TimerService.StepSound (.new clock) es) ↔
    race = false ∧ max 1 P + L < 2 ^ 31 := by
  refine ⟨fun h => ?_, fun h clock es hclass => ?_⟩
  · cases race with
    | true => exact absurd (h 0 _ (TimerService.racing_inClass P L)) TimerService.racing_unsound
    | false =>
      refine ⟨rfl, Classical.byContradiction fun hbig => ?_⟩
      by_cases hlong : 2 ^ 31 ≤ P
      · exact TimerService.longPeriod_unsound (h 0 _ (TimerService.longPeriod_inClass hlong L))
      · have hperiod : (BitVec.ofNat 32 P).toNat = P := by
          exact Nat.mod_eq_of_lt hP
        refine TimerService.starving_unsound (2 ^ 31 - max 1 P) (BitVec.ofNat 32 P) ?_
          (h 0 _ (TimerService.starving_inClass ?_ ?_ hperiod.le))
        · omega
        · omega
        · omega
  · obtain ⟨rfl, hsmall⟩ := h
    exact TimerService.sound_run (TimerService.good_new _ clock) hsmall hclass

theorem timer_cb_sound_minutes :
    Along TimerService.step (TimerService.InClass 60000 1000 false) (.new 0) TimerService.minute ∧
      Along TimerService.step TimerService.StepSound (.new 0) TimerService.minute :=
  ⟨TimerService.minute_inClass,
    (timer_cb_sound_iff 60000 1000 (by decide) false).mpr ⟨rfl, by decide⟩ 0 _ TimerService.minute_inClass⟩

/-- **A timer of 2^31 milliseconds fires when it is created**: its callback is invoked 2^31 milliseconds early. -/
theorem long_period_fires_at_once :
    (run TimerService.step (.new 0) [(0, .create (2 ^ 31) false), (0, .service)]).invoked .service = some 0 ∧
    (run TimerService.step (.new 0) [(0, .create (2 ^ 31) false), (0, .service)]).earliest 0 = 2 ^ 31 ∧
    (run TimerService.step (.new 0) [(0, .create (2 ^ 31) false), (0, .service)]).clock = 0 := by
  decide

end DcuDaemon.Gateway
