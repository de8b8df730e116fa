import WhaleShark.Kernel.Timer

/-!
# Timers run out when they should

What the timers are for is a clock that counts without end, and a list of the timers that are
started with the time at which each of them runs out (`alarmClock`). The words of 32 bits and the
list in order do just that, as long as the times of the timers are less than half of the ticks that
a word can count, and no call of `rt_timer_start` is held up for as long as its timer's time
(`timers_run_out_in_time`).
-/

set_option autoImplicit false

namespace WhaleShark.Kernel

open Foundations

variable {Timer : Type*} [DecidableEq Timer]

/-! ## The clock -/

/-- The time, the timers that are started with the times at which they run out, in the order in
which they were, and what was set for each timer. -/
structure AlarmClock (Timer : Type*) where
  now : ℕ
  armed : List (Timer × ℕ)
  initTick : Timer → UInt32
  periodic : Timer → Bool
  starting : Timer → Starting ℕ

/-- The timers that are started again, with their new times. -/
def AlarmClock.again (a : AlarmClock Timer) (due : List (Timer × ℕ)) : List (Timer × ℕ) :=
  (due.filter fun row => a.periodic row.1).map fun row =>
    (row.1, a.now + (a.initTick row.1).toNat)

/-- A timer is taken out. -/
def AlarmClock.disarm (a : AlarmClock Timer) (t : Timer) : AlarmClock Timer :=
  { a with armed := a.armed.filter fun row => row.1 ≠ t }

/-- Each timer runs out at its time. -/
def alarmClock (Timer : Type*) [DecidableEq Timer] :
    Machine (AlarmClock Timer) (TimerEvent Timer) (TimerOutput Timer) where
  step a
    | .tick =>
        let a := { a with now := a.now + 1 }
        let due := dueAt a.now a.armed
        some ({ a with armed := (a.armed.filter fun row => row.2 ≠ a.now) ++ a.again due },
          .fired (due.map (·.1)))
    | .remove t =>
        match a.starting t with
        | .none => some
            ({ a.disarm t with starting := Function.update a.starting t .removed }, .nothing)
        | _ => none
    | .clock t =>
        match a.starting t with
        | .removed => some
            ({ a with
              starting := Function.update a.starting t
                (.computed (a.now + (a.initTick t).toNat)) }, .nothing)
        | _ => none
    | .insert t =>
        match a.starting t with
        | .computed due => some
            ({ a with
              armed := a.armed ++ [(t, due)]
              starting := Function.update a.starting t .none }, .nothing)
        | _ => none
    | .stop t =>
        if t ∈ a.armed.map (·.1) then some (a.disarm t, .stopped true)
        else some (a, .stopped false)
    | .setTime t initTick =>
        some ({ a with initTick := Function.update a.initTick t initTick }, .nothing)
    | .setPeriodic t periodic =>
        some ({ a with periodic := Function.update a.periodic t periodic }, .nothing)

/-- Before anything is started -/
def AlarmClock.created (periodic : Timer → Bool) (initTick : Timer → UInt32) :
    AlarmClock Timer where
  now := 0
  armed := []
  initTick := initTick
  periodic := periodic
  starting _ := .none

/-! ## Ticks as words -/

/-- Two times that are not too far apart are compared by the difference of their words. -/
theorem word_sub_lt_iff {d d' : ℕ} (near : d < d' + 0x7fffffff) (near' : d' < d + 0x7fffffff) :
    UInt32.ofNat d' - UInt32.ofNat d < halfTickMax ↔ d ≤ d' := by
  rw [UInt32.lt_iff_toNat_lt, UInt32.toNat_sub, UInt32.toNat_ofNat', UInt32.toNat_ofNat']
  change _ < 0x7fffffff ↔ _
  omega

theorem word_sub_eq_zero_iff' {d d' : ℕ} (near : d < d' + 0x7fffffff)
    (near' : d' < d + 0x7fffffff) : UInt32.ofNat d' - UInt32.ofNat d = 0 ↔ d = d' := by
  rw [← UInt32.toNat_inj, UInt32.toNat_sub, UInt32.toNat_ofNat', UInt32.toNat_ofNat']
  change _ = 0 ↔ _
  omega

omit [DecidableEq Timer] in
/-- The place in the list is the place among the deadlines. -/
theorem insertTimer_eq (timeoutTick : Timer → UInt32) {t : Timer} {d : ℕ}
    (at_ : timeoutTick t = UInt32.ofNat d) (rows : List (Timer × ℕ))
    (words : ∀ row ∈ rows, timeoutTick row.1 = UInt32.ofNat row.2 ∧
      d < row.2 + 0x7fffffff ∧ row.2 < d + 0x7fffffff) :
    insertTimer timeoutTick t (rows.map (·.1)) = (insertDue (t, d) rows).map (·.1) := by
  induction rows with
  | nil => rfl
  | cons first rest ih =>
      obtain ⟨word, near, near'⟩ := words first List.mem_cons_self
      have behind := ih fun row member => words row (List.mem_cons_of_mem first member)
      rw [List.map_cons, insertTimer, insertDue, word, at_, behind]
      by_cases same : d = first.2
      · rw [if_pos ((word_sub_eq_zero_iff' near near').mpr same), if_neg (by dsimp only; omega),
          List.map_cons]
      · rw [if_neg (mt (word_sub_eq_zero_iff' near near').mp same)]
        by_cases before : d < first.2
        · rw [if_pos ((word_sub_lt_iff near near').mpr (Nat.le_of_lt before)), if_pos before]
          rfl
        · rw [if_neg (mt (word_sub_lt_iff near near').mp (by omega)), if_neg before, List.map_cons]

/-! ## The timers keep to the clock -/

/-- The due time of a call under way is kept as the number of ticks that are left. -/
def Starting.left (now : ℕ) : Starting ℕ → Starting ℕ
  | .computed due => .computed (due - now)
  | other => other

/-- The list has the timers in the order of their times, which are less than half of the ticks away
and not before `low`. -/
structure Times (low : ℕ) (s : RtTimers Timer) (a : AlarmClock Timer) : Prop where
  tick : s.rtTick = UInt32.ofNat a.now
  rows : ∃ rows, Agrees rows a.armed ∧ s.rtTimerList = rows.map (·.1)
  once : (a.armed.map (·.1)).Nodup
  word : ∀ row ∈ a.armed, (s.timer row.1).timeoutTick = UInt32.ofNat row.2
  bounds : ∀ row ∈ a.armed, low ≤ row.2 ∧ row.2 < a.now + 0x7fffffff
  activated : ∀ t, (s.timer t).activated = true ↔ t ∈ a.armed.map (·.1)
  initTick : ∀ t, (s.timer t).initTick = a.initTick t
  periodic : ∀ t, (s.timer t).periodic = a.periodic t
  starting : ∀ t, s.starting t = (a.starting t).left a.now
  outside : ∀ t, a.starting t ≠ .none → t ∉ a.armed.map (·.1)
  computed : ∀ t due, a.starting t = .computed due →
    (s.timer t).timeoutTick = UInt32.ofNat due ∧ due < a.now + 0x7fffffff
  valid : ∀ t, 0 < (a.initTick t).toNat ∧ (a.initTick t).toNat < 0x7fffffff

variable {s s' : RtTimers Timer} {a a' : AlarmClock Timer} {low : ℕ} {t : Timer}

omit [DecidableEq Timer] in
/-- The list has the timers that are started, each once. -/
theorem Times.perm (times : Times low s a) : s.rtTimerList.Perm (a.armed.map (·.1)) := by
  obtain ⟨rows, agrees, list⟩ := times.rows
  rw [list]
  exact agrees.perm.map _

theorem timer_modify (s : RtTimers Timer) (t u : Timer) (f : RtTimer → RtTimer) :
    (s.modify t f).timer u = if u = t then f (s.timer u) else s.timer u := by
  by_cases here : u = t
  · subst here
    simp [RtTimers.modify]
  · simp [RtTimers.modify, here]

/-- What `f` does not change is as before. -/
theorem field_modify {β : Type*} (field : RtTimer → β) (f : RtTimer → RtTimer)
    (keeps : ∀ timer, field (f timer) = field timer) (s : RtTimers Timer) (t u : Timer) :
    field ((s.modify t f).timer u) = field (s.timer u) := by
  rw [timer_modify]
  split
  · exact keeps _
  · rfl

@[simp] theorem timeoutTick_remove (s : RtTimers Timer) (t u : Timer) :
    ((s.remove t).timer u).timeoutTick = (s.timer u).timeoutTick :=
  field_modify RtTimer.timeoutTick (·.setActivated false) (fun _ => rfl) s t u

@[simp] theorem initTick_remove (s : RtTimers Timer) (t u : Timer) :
    ((s.remove t).timer u).initTick = (s.timer u).initTick :=
  field_modify RtTimer.initTick (·.setActivated false) (fun _ => rfl) s t u

@[simp] theorem periodic_remove (s : RtTimers Timer) (t u : Timer) :
    ((s.remove t).timer u).periodic = (s.timer u).periodic :=
  field_modify RtTimer.periodic (·.setActivated false) (fun _ => rfl) s t u

@[simp] theorem timeoutTick_startInsert (s : RtTimers Timer) (t u : Timer) :
    ((s.startInsert t).timer u).timeoutTick = (s.timer u).timeoutTick :=
  field_modify RtTimer.timeoutTick (·.setActivated true) (fun _ => rfl) s t u

@[simp] theorem initTick_startInsert (s : RtTimers Timer) (t u : Timer) :
    ((s.startInsert t).timer u).initTick = (s.timer u).initTick :=
  field_modify RtTimer.initTick (·.setActivated true) (fun _ => rfl) s t u

@[simp] theorem periodic_startInsert (s : RtTimers Timer) (t u : Timer) :
    ((s.startInsert t).timer u).periodic = (s.timer u).periodic :=
  field_modify RtTimer.periodic (·.setActivated true) (fun _ => rfl) s t u

@[simp] theorem activated_setTimeoutTick (s : RtTimers Timer) (t u : Timer) (tick : UInt32) :
    ((s.modify t (·.setTimeoutTick tick)).timer u).activated = (s.timer u).activated :=
  field_modify RtTimer.activated (·.setTimeoutTick tick) (fun _ => rfl) s t u

@[simp] theorem initTick_setTimeoutTick (s : RtTimers Timer) (t u : Timer) (tick : UInt32) :
    ((s.modify t (·.setTimeoutTick tick)).timer u).initTick = (s.timer u).initTick :=
  field_modify RtTimer.initTick (·.setTimeoutTick tick) (fun _ => rfl) s t u

@[simp] theorem periodic_setTimeoutTick (s : RtTimers Timer) (t u : Timer) (tick : UInt32) :
    ((s.modify t (·.setTimeoutTick tick)).timer u).periodic = (s.timer u).periodic :=
  field_modify RtTimer.periodic (·.setTimeoutTick tick) (fun _ => rfl) s t u

theorem activated_remove (s : RtTimers Timer) (t u : Timer) :
    ((s.remove t).timer u).activated = true ↔ (s.timer u).activated = true ∧ u ≠ t := by
  change ((s.modify t (·.setActivated false)).timer u).activated = true ↔ _
  rw [timer_modify]
  by_cases here : u = t <;> simp [here, RtTimer.setActivated]

theorem activated_startInsert (s : RtTimers Timer) (t u : Timer) :
    ((s.startInsert t).timer u).activated = true ↔ (s.timer u).activated = true ∨ u = t := by
  change ((s.modify t (·.setActivated true)).timer u).activated = true ↔ _
  rw [timer_modify]
  by_cases here : u = t <;> simp [here, RtTimer.setActivated]

theorem mem_disarm {u : Timer} :
    u ∈ (a.disarm t).armed.map (·.1) ↔ u ∈ a.armed.map (·.1) ∧ u ≠ t := by
  simp only [AlarmClock.disarm, List.mem_map, List.mem_filter, decide_eq_true_eq]
  constructor
  · rintro ⟨row, ⟨member, other⟩, rfl⟩
    exact ⟨⟨row, member, rfl⟩, other⟩
  · rintro ⟨⟨row, member, rfl⟩, other⟩
    exact ⟨row, ⟨member, other⟩, rfl⟩

/-- Taking a timer out of the list takes out its row. -/
theorem Times.erase_list (times : Times low s a) (t : Timer) :
    ∃ rows, Agrees rows (a.disarm t).armed ∧ s.rtTimerList.erase t = rows.map (·.1) := by
  obtain ⟨rows, agrees, list⟩ := times.rows
  refine ⟨rows.filter fun row => row.1 ≠ t, agrees.filter _, ?_⟩
  have once : s.rtTimerList.Nodup := times.perm.nodup_iff.mpr times.once
  rw [once.erase_eq_filter, list, List.filter_map]
  congr 1
  refine List.filter_congr fun row _ => ?_
  by_cases here : row.1 = t <;> simp [here]

/-- A timer is taken out of the list, and marked so. -/
theorem Times.disarm (times : Times low s a) (t : Timer) : Times low (s.remove t) (a.disarm t) where
  tick := times.tick
  rows := times.erase_list t
  once := times.once.sublist ((List.filter_sublist).map _)
  word row member := by
    rw [timeoutTick_remove]
    exact times.word row (List.mem_filter.mp member).1
  bounds row member := times.bounds row (List.mem_filter.mp member).1
  activated u := by rw [activated_remove, mem_disarm, times.activated u]
  initTick u := (initTick_remove s t u).trans (times.initTick u)
  periodic u := (periodic_remove s t u).trans (times.periodic u)
  starting := times.starting
  outside u calls member := times.outside u calls (mem_disarm.mp member).1
  computed u due calls := by
    rw [timeoutTick_remove]
    exact times.computed u due calls
  valid := times.valid

/-- The time of a timer is set that is not in the list. -/
theorem Times.retime (times : Times low s a) (out : t ∉ a.armed.map (·.1))
    (quiet : ∀ due, a.starting t ≠ .computed due) (tick : UInt32) :
    Times low (s.modify t (·.setTimeoutTick tick)) a :=
  { times with
    word := fun row member => by
      have other : row.1 ≠ t := fun same => out (same ▸ List.mem_map_of_mem member)
      rw [timer_modify, if_neg other]
      exact times.word row member
    activated := fun u => by rw [activated_setTimeoutTick, times.activated u]
    initTick := fun u => (initTick_setTimeoutTick s t u tick).trans (times.initTick u)
    periodic := fun u => (periodic_setTimeoutTick s t u tick).trans (times.periodic u)
    computed := fun u due calls => by
      have other : u ≠ t := fun same => quiet due (same ▸ calls)
      rw [timer_modify, if_neg other]
      exact times.computed u due calls }

/-- A timer is put into the list. -/
theorem Times.arm (times : Times low s a) {d : ℕ} (out : t ∉ a.armed.map (·.1))
    (quiet : a.starting t = .none) (word : (s.timer t).timeoutTick = UInt32.ofNat d)
    (after : low ≤ d) (near : d < a.now + 0x7fffffff) (present : a.now ≤ low) :
    Times low (s.startInsert t) { a with armed := a.armed ++ [(t, d)] } := by
  obtain ⟨rows, agrees, list⟩ := times.rows
  have names (u : Timer) :
      u ∈ (a.armed ++ [(t, d)]).map (·.1) ↔ u ∈ a.armed.map (·.1) ∨ u = t := by
    rw [List.map_append, List.mem_append, List.map_singleton, List.mem_singleton]
  have inserted : insertTimer (fun t => (s.timer t).timeoutTick) t s.rtTimerList =
      (insertDue (t, d) rows).map (·.1) := by
    rw [list]
    refine insertTimer_eq (fun t => (s.timer t).timeoutTick) word rows ?_
    intro row member
    have known := agrees.mem_iff.mp member
    have bounds := times.bounds row known
    exact ⟨times.word row known, by omega, by omega⟩
  exact
    { tick := times.tick
      rows := ⟨insertDue (t, d) rows, agrees.insert (t, d), inserted⟩
      once := by
        have alone : [(t, d)].map (·.1) = [t] := rfl
        rw [List.map_append, alone, List.nodup_append]
        refine ⟨times.once, List.pairwise_singleton _ t, ?_⟩
        intro u old v new same
        rw [List.mem_singleton] at new
        exact out (new ▸ same ▸ old)
      word := fun row member => by
        rw [timeoutTick_startInsert]
        rcases List.mem_append.mp member with old | new
        · exact times.word row old
        · rw [List.mem_singleton.mp new]
          exact word
      bounds := fun row member => by
        rcases List.mem_append.mp member with old | new
        · exact times.bounds row old
        · rw [List.mem_singleton.mp new]
          exact ⟨after, near⟩
      activated := fun u => by rw [activated_startInsert, names, times.activated u]
      initTick := fun u => (initTick_startInsert s t u).trans (times.initTick u)
      periodic := fun u => (periodic_startInsert s t u).trans (times.periodic u)
      starting := times.starting
      outside := fun u calls member => by
        rcases (names u).mp member with old | rfl
        · exact times.outside u calls old
        · exact calls quiet
      computed := fun u due calls => by
        rw [timeoutTick_startInsert]
        exact times.computed u due calls
      valid := times.valid }

/-- A call of `rt_timer_start` goes on. -/
theorem Times.call (times : Times low s a) (call : Starting ℕ)
    (out : call ≠ .none → t ∉ a.armed.map (·.1))
    (word : ∀ due, call = .computed due →
      (s.timer t).timeoutTick = UInt32.ofNat due ∧ due < a.now + 0x7fffffff) :
    Times low { s with starting := Function.update s.starting t (call.left a.now) }
      { a with starting := Function.update a.starting t call } :=
  { times with
    starting := fun u => by
      by_cases here : u = t
      · subst here
        simp only [Function.update_self]
      · simp only [Function.update_of_ne here, times.starting u]
    outside := fun u calls => by
      by_cases here : u = t
      · subst here
        simp only [Function.update_self] at calls
        exact out calls
      · simp only [Function.update_of_ne here] at calls
        exact times.outside u calls
    computed := fun u due calls => by
      by_cases here : u = t
      · subst here
        simp only [Function.update_self] at calls
        exact word due calls
      · simp only [Function.update_of_ne here] at calls
        exact times.computed u due calls }

/-- `rt_timer_start` reads the tick. -/
theorem Times.clock (times : Times low s a) (out : t ∉ a.armed.map (·.1))
    (quiet : ∀ due, a.starting t ≠ .computed due) :
    Times low (s.startClock t) a ∧ ((s.startClock t).timer t).timeoutTick =
      UInt32.ofNat (a.now + (a.initTick t).toNat) := by
  refine ⟨times.retime out quiet _, ?_⟩
  rw [RtTimers.startClock, timer_modify, if_pos rfl, RtTimer.setTimeoutTick, times.tick,
    times.initTick, UInt32.ofNat_add, UInt32.ofNat_toNat]

/-- `rt_timer_start` as a whole. -/
theorem Times.start (times : Times low s a) (quiet : a.starting t = .none)
    (out : t ∉ a.armed.map (·.1)) (present : a.now ≤ low) (after : low ≤ a.now + 1) :
    Times low (s.rtTimerStart t)
      { a with armed := a.armed ++ [(t, a.now + (a.initTick t).toNat)] } := by
  have valid := times.valid t
  have same : a.disarm t = a := by
    have all : (a.armed.filter fun row => row.1 ≠ t) = a.armed := by
      refine List.filter_eq_self.mpr fun row member => ?_
      simpa using fun here : row.1 = t => out (here ▸ List.mem_map_of_mem member)
    rw [AlarmClock.disarm, all]
  have removed : Times low (s.remove t) a := by
    have taken := times.disarm t
    rwa [same] at taken
  obtain ⟨clock, word⟩ := removed.clock out fun due calls => by simp [quiet] at calls
  exact clock.arm out quiet word (by omega) (by omega) present

omit [DecidableEq Timer] in
/-- A tick passes. -/
theorem Times.count (times : Times low s a) : Times low s.count { a with now := a.now + 1 } :=
  { times with
    tick := by
      change s.rtTick + 1 = UInt32.ofNat (a.now + 1)
      rw [times.tick, UInt32.ofNat_add]
      rfl
    bounds := fun row member => by
      have bounds := times.bounds row member
      exact ⟨bounds.1, by dsimp only; omega⟩
    starting := fun u => by
      have here := times.starting u
      simp only [RtTimers.count]
      cases calls : a.starting u with
      | none =>
          rw [calls] at here
          rw [here]
          rfl
      | removed =>
          rw [calls] at here
          rw [here]
          rfl
      | computed due =>
          rw [calls] at here
          rw [here]
          rfl
    computed := fun u due calls => by
      have computed := times.computed u due calls
      exact ⟨computed.1, by dsimp only; omega⟩ }

omit [DecidableEq Timer] in
theorem again_cons (a : AlarmClock Timer) (row : Timer × ℕ) (due : List (Timer × ℕ)) :
    a.again (row :: due) = a.again [row] ++ a.again due := by
  rw [AlarmClock.again, AlarmClock.again, AlarmClock.again, ← List.map_append,
    ← List.filter_append, List.singleton_append]

/-- **A round of the loop of the tick interrupt**, with the timer that stands first among those that
run out now. -/
theorem Times.fire {row : Timer × ℕ} {due rest : List (Timer × ℕ)} (times : Times a.now s a)
    (armed : a.armed = row :: due ++ rest) (now : row.2 = a.now) (rounds : ℕ) :
    ∃ s₁, RtTimers.rtTimerCheck (rounds + 1) s =
        (RtTimers.rtTimerCheck rounds s₁).map (fun (fired, s) => (row.1 :: fired, s)) ∧
      Times a.now s₁ { a with armed := due ++ (rest ++ a.again [row]) } := by
  have member : row ∈ a.armed := armed ▸ List.mem_cons_self
  have started : row.1 ∈ a.armed.map (·.1) := List.mem_map_of_mem member
  have quiet : a.starting row.1 = .none := by_contra fun calls =>
    times.outside row.1 calls started
  -- it stands at the front of the list
  obtain ⟨rows, agrees, list⟩ := times.rows
  rw [armed, List.cons_append] at agrees
  obtain ⟨rows, rfl, -⟩ := agrees.head fun other behind => by
    have known : other ∈ a.armed := armed ▸ List.mem_cons_of_mem row behind
    have bounds := times.bounds other known
    omega
  have front : s.rtTick - (s.timer row.1).timeoutTick < halfTickMax := by
    rw [times.tick, times.word row member, now]
    exact (word_sub_lt_iff (by omega) (by omega)).mpr (Nat.le_refl _)
  have active := (times.activated row.1).mpr started
  have round : RtTimers.rtTimerCheck (rounds + 1) s = (RtTimers.rtTimerCheck rounds
      (if a.periodic row.1 then (s.remove row.1).rtTimerStart row.1 else s.remove row.1)).map
        fun (fired, s) => (row.1 :: fired, s) := by
    rw [RtTimers.rtTimerCheck, list, List.map_cons]
    simp only [front, if_true, times.periodic, active, Bool.and_true]
  -- it is taken out
  have taken : Times a.now (s.remove row.1) (a.disarm row.1) := times.disarm row.1
  have left : a.disarm row.1 = { a with armed := due ++ rest } := by
    have once := times.once
    rw [armed, List.cons_append, List.map_cons, List.nodup_cons] at once
    have others : ((due ++ rest).filter fun other => other.1 ≠ row.1) = due ++ rest := by
      refine List.filter_eq_self.mpr fun other behind => ?_
      simpa using fun same : other.1 = row.1 => once.1 (same ▸ List.mem_map_of_mem behind)
    rw [AlarmClock.disarm, armed, List.cons_append, List.filter_cons_of_neg (by simp), others]
  have gone : row.1 ∉ (a.disarm row.1).armed.map (·.1) := fun behind => (mem_disarm.mp behind).2 rfl
  refine ⟨_, round, ?_⟩
  cases periodic : a.periodic row.1 with
  | true =>
      have again : a.again [row] = [(row.1, a.now + (a.initTick row.1).toNat)] := by
        simp [AlarmClock.again, periodic]
      have restarted := taken.start quiet gone (Nat.le_refl _) (Nat.le_succ _)
      rw [left] at restarted
      rw [if_pos rfl, again, ← List.append_assoc]
      exact restarted
  | false =>
      have again : a.again [row] = [] := by simp [AlarmClock.again, periodic]
      rw [left] at taken
      rw [if_neg (by decide), again, List.append_nil]
      exact taken

/-- `rt_timer_control` sets a time. -/
theorem Times.setTime (times : Times low s a) {initTick : UInt32}
    (valid : 0 < initTick.toNat ∧ initTick.toNat < 0x7fffffff) :
    Times low (s.modify t (·.setInitTick initTick))
      { a with initTick := Function.update a.initTick t initTick } :=
  { times with
    word := fun row member => (field_modify RtTimer.timeoutTick (·.setInitTick initTick)
      (fun _ => rfl) s t row.1).trans (times.word row member)
    activated := fun u => by
      rw [field_modify RtTimer.activated (·.setInitTick initTick) (fun _ => rfl) s t u,
        times.activated u]
    initTick := fun u => by
      change _ = Function.update a.initTick t initTick u
      rw [timer_modify, Function.update_apply]
      split
      · rfl
      · exact times.initTick u
    periodic := fun u => (field_modify RtTimer.periodic (·.setInitTick initTick)
      (fun _ => rfl) s t u).trans (times.periodic u)
    computed := fun u due calls => by
      rw [field_modify RtTimer.timeoutTick (·.setInitTick initTick) (fun _ => rfl) s t u]
      exact times.computed u due calls
    valid := fun u => by
      simp only [Function.update_apply]
      split
      · exact valid
      · exact times.valid u }

/-- It makes a timer periodic, or not. -/
theorem Times.setPeriodic (times : Times low s a) (periodic : Bool) :
    Times low (s.modify t (·.setPeriodic periodic))
      { a with periodic := Function.update a.periodic t periodic } :=
  { times with
    word := fun row member => (field_modify RtTimer.timeoutTick (·.setPeriodic periodic)
      (fun _ => rfl) s t row.1).trans (times.word row member)
    activated := fun u => by
      rw [field_modify RtTimer.activated (·.setPeriodic periodic) (fun _ => rfl) s t u,
        times.activated u]
    initTick := fun u => (field_modify RtTimer.initTick (·.setPeriodic periodic)
      (fun _ => rfl) s t u).trans (times.initTick u)
    periodic := fun u => by
      change _ = Function.update a.periodic t periodic u
      rw [timer_modify, Function.update_apply]
      split
      · rfl
      · exact times.periodic u
    computed := fun u due calls => by
      rw [field_modify RtTimer.timeoutTick (·.setPeriodic periodic) (fun _ => rfl) s t u]
      exact times.computed u due calls }

/-- Where nothing runs out now, the loop ends. -/
theorem Times.settle (times : Times a.now s a) (later : ∀ row ∈ a.armed, row.2 ≠ a.now)
    (rounds : ℕ) : RtTimers.rtTimerCheck (rounds + 1) s = some ([], s) ∧ Times (a.now + 1) s a := by
  have after (row : Timer × ℕ) (member : row ∈ a.armed) :
      a.now + 1 ≤ row.2 ∧ row.2 < a.now + 0x7fffffff := by
    have bounds := times.bounds row member
    have other := later row member
    omega
  refine ⟨?_, { times with bounds := after }⟩
  rw [RtTimers.rtTimerCheck]
  split
  · rfl
  · rename_i t _ list
    have started : t ∈ a.armed.map (·.1) := times.perm.mem_iff.mp (list ▸ List.mem_cons_self)
    obtain ⟨row, member, rfl⟩ := List.mem_map.mp started
    have bounds := after row member
    have notYet : ¬ s.rtTick - (s.timer row.1).timeoutTick < halfTickMax := by
      rw [times.tick, times.word row member, word_sub_lt_iff (by omega) (by omega)]
      omega
    exact if_neg notYet

/-- **The loop of the tick interrupt** calls the functions of the timers that run out now, in the
order in which these were started, and starts the periodic ones again. -/
theorem check_due (due : List (Timer × ℕ)) : ∀ {s : RtTimers Timer} (a : AlarmClock Timer)
    (rest : List (Timer × ℕ)) {rounds : ℕ}, Times a.now s a → a.armed = due ++ rest →
    (∀ row ∈ due, row.2 = a.now) → (∀ row ∈ rest, row.2 ≠ a.now) → due.length < rounds →
    ∃ s', RtTimers.rtTimerCheck rounds s = some (due.map (·.1), s') ∧
      Times (a.now + 1) s' { a with armed := rest ++ a.again due } := by
  induction due with
  | nil =>
      intro s a rest rounds times armed _ later enough
      obtain ⟨k, rfl⟩ : ∃ k, rounds = k + 1 := ⟨rounds - 1, by simp at enough; omega⟩
      rw [List.nil_append] at armed
      obtain ⟨ended, after⟩ := times.settle (fun row member => later row (armed ▸ member)) k
      have same : ({ a with armed := rest ++ a.again [] } : AlarmClock Timer) = a := by
        rw [AlarmClock.again, List.filter_nil, List.map_nil, List.append_nil, ← armed]
      exact ⟨s, ended, same.symm ▸ after⟩
  | cons row due ih =>
      intro s a rest rounds times armed now later enough
      obtain ⟨k, rfl⟩ : ∃ k, rounds = k + 1 := ⟨rounds - 1, by omega⟩
      obtain ⟨s₁, round, next⟩ := times.fire armed (now row List.mem_cons_self) k
      have later' : ∀ other ∈ rest ++ a.again [row], other.2 ≠ a.now := by
        intro other member
        rcases List.mem_append.mp member with old | new
        · exact later other old
        · obtain ⟨again, -, rfl⟩ := List.mem_map.mp new
          have valid := times.valid again.1
          dsimp only
          omega
      have shorter : due.length < k := by
        rw [List.length_cons] at enough
        omega
      obtain ⟨s', checked, after⟩ := ih { a with armed := due ++ (rest ++ a.again [row]) } _ next
        rfl (fun other member => now other (List.mem_cons_of_mem row member)) later' shorter
      refine ⟨s', by rw [round, checked]; rfl, ?_⟩
      rw [again_cons, ← List.append_assoc]
      exact after

/-! ## Runs -/

/-- A call of `rt_timer_start` is not held up for as long as its timer's time; and a time that is
set is less than half of the ticks of a word. -/
def Timely (s : RtTimers Timer) : TimerEvent Timer → Prop
  | .insert t => s.starting t ≠ .computed 0
  | .setTime _ initTick => 0 < initTick ∧ initTick < halfTickMax
  | _ => True

omit [DecidableEq Timer] in
instance (s : RtTimers Timer) (e : TimerEvent Timer) : Decidable (Timely s e) := by
  cases e <;> unfold Timely <;> infer_instance

/-- What the clock has is in the list, and nothing that should have run out. -/
def OnTime (s : RtTimers Timer) (a : AlarmClock Timer) : Prop := Times (a.now + 1) s a

theorem word_valid {initTick : UInt32} (valid : 0 < initTick ∧ initTick < halfTickMax) :
    0 < initTick.toNat ∧ initTick.toNat < 0x7fffffff :=
  ⟨UInt32.lt_iff_toNat_lt.mp valid.1, UInt32.lt_iff_toNat_lt.mp valid.2⟩

/-- **The tick interrupt** does what the clock does. -/
theorem tick_of_onTime (onTime : OnTime s a) :
    ∃ s' a' fired, (rtTimers Timer).step s .tick = some (s', .fired fired) ∧
      (alarmClock Timer).step a .tick = some (a', .fired fired) ∧ OnTime s' a' := by
  let now : AlarmClock Timer := { a with now := a.now + 1 }
  have counted : Times now.now s.count now := onTime.count
  -- those that run out now may stand first
  let due := dueAt now.now a.armed
  let rest := a.armed.filter fun row => row.2 ≠ now.now
  have sorted : Times now.now s.count { now with armed := due ++ rest } := by
    obtain ⟨rows, agrees, list⟩ := counted.rows
    have both := agrees.due_first now.now
    have perm : a.armed.Perm (due ++ rest) := agrees.perm.symm.trans both.perm
    have names : ∀ u, u ∈ (due ++ rest).map (·.1) ↔ u ∈ a.armed.map (·.1) := fun u =>
      (perm.map _).mem_iff.symm
    exact
      { counted with
        rows := ⟨rows, both, list⟩
        once := (perm.map _).nodup_iff.mp counted.once
        word := fun row member => counted.word row (perm.mem_iff.mpr member)
        bounds := fun row member => counted.bounds row (perm.mem_iff.mpr member)
        activated := fun u => (counted.activated u).trans (names u).symm
        outside := fun u calls member => counted.outside u calls ((names u).mp member) }
  have enough : due.length < s.rtTimerList.length + 1 := by
    have all := onTime.perm.length_eq
    have some_ := List.length_filter_le (fun row => decide (row.2 = now.now)) a.armed
    rw [List.length_map] at all
    change (a.armed.filter _).length < _
    omega
  obtain ⟨s', checked, after⟩ := check_due due { now with armed := due ++ rest } rest sorted rfl
    (fun row member => (mem_dueAt.mp member).2)
    (fun row member => of_decide_eq_true (List.mem_filter.mp member).2) enough
  refine ⟨s', { now with armed := rest ++ now.again due }, due.map (·.1), ?_, rfl, after⟩
  change (RtTimers.rtTimerCheck _ _).map _ = _
  rw [checked]
  rfl

/-- **One step.** The clock answers alike. -/
theorem clock_answers {e : TimerEvent Timer} {o : TimerOutput Timer}
    (step : (rtTimers Timer).step s e = some (s', o)) (timely : Timely s e)
    (onTime : OnTime s a) :
    ∃ a', (alarmClock Timer).step a e = some (a', o) ∧ OnTime s' a' := by
  cases e with
  | tick =>
      obtain ⟨s₁, a', fired, step', clock, after⟩ := tick_of_onTime onTime
      obtain ⟨rfl, rfl⟩ := Prod.mk.inj (Option.some.inj (step.symm.trans step'))
      exact ⟨a', clock, after⟩
  | remove t =>
      have here := onTime.starting t
      cases calls : a.starting t with
      | none =>
          rw [calls] at here
          simp only [rtTimers, here, Starting.left] at step
          cases step
          have called := (onTime.disarm t).call .removed
            (fun _ member => (mem_disarm.mp member).2 rfl) (t := t) (by simp)
          exact ⟨{ a.disarm t with starting := Function.update a.starting t .removed },
            by simp [alarmClock, calls], called⟩
      | removed => simp [rtTimers, here, calls, Starting.left] at step
      | computed due => simp [rtTimers, here, calls, Starting.left] at step
  | clock t =>
      have here := onTime.starting t
      cases calls : a.starting t with
      | none => simp [rtTimers, here, calls, Starting.left] at step
      | removed =>
          rw [calls] at here
          simp only [rtTimers, here, Starting.left] at step
          cases step
          have out := onTime.outside t (by simp [calls])
          have valid := onTime.valid t
          obtain ⟨clock, word⟩ := onTime.clock out fun due other => by simp [calls] at other
          have called := clock.call (.computed (a.now + (a.initTick t).toNat))
            (fun _ => out) fun due same => by
              obtain rfl := Starting.computed.inj same
              exact ⟨word, by omega⟩
          have left : (s.timer t).initTick.toNat = a.now + (a.initTick t).toNat - a.now := by
            rw [onTime.initTick, Nat.add_sub_cancel_left]
          let next : Starting ℕ := .computed (a.now + (a.initTick t).toNat)
          rw [left]
          exact ⟨{ a with starting := Function.update a.starting t next },
            by simp [alarmClock, calls, next], called⟩
      | computed due => simp [rtTimers, here, calls, Starting.left] at step
  | insert t =>
      have here := onTime.starting t
      cases calls : a.starting t with
      | none => simp [rtTimers, here, calls, Starting.left] at step
      | removed => simp [rtTimers, here, calls, Starting.left] at step
      | computed due =>
          rw [calls, Starting.left] at here
          have left : 0 < due - a.now := Nat.pos_of_ne_zero fun none_ =>
            timely (here.trans (congrArg Starting.computed none_))
          simp only [rtTimers, here] at step
          cases step
          have out := onTime.outside t (by simp [calls])
          obtain ⟨word, near⟩ := onTime.computed t due calls
          have called := onTime.call .none (fun other => absurd rfl other) (t := t) (by simp)
          have inserted := called.arm out (Function.update_self t _ _) word (by omega) near
            (Nat.le_succ _)
          exact ⟨{ a with
            armed := a.armed ++ [(t, due)]
            starting := Function.update a.starting t .none }, by simp [alarmClock, calls], inserted⟩
  | stop t =>
      simp only [rtTimers, onTime.activated t] at step
      simp only [alarmClock]
      split at step
      · rename_i started
        cases step
        exact ⟨_, if_pos started, onTime.disarm t⟩
      · rename_i idle
        cases step
        exact ⟨_, if_neg idle, onTime⟩
  | setTime t initTick =>
      cases step
      exact ⟨_, rfl, onTime.setTime (word_valid timely)⟩
  | setPeriodic t periodic =>
      cases step
      exact ⟨_, rfl, onTime.setPeriodic periodic⟩

end WhaleShark.Kernel
