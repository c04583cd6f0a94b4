import IlpConnector.Simulation.Scheduler
import Mathlib.Tactic.Common

/-!
# Moves of the scheduler, one after the other

`Scheduler.Goes` follows a run of the scheduler over some moves, and there is one fact about it for
each kind of move.  A main task that gets to its end has ended so (`Scheduler.perform_eq`).

A main task that waits for another one hears of its end if that comes until the time is up, and also
when it comes just then (`Scheduler.goes_wake`, `Scheduler.goes_hear`); else it goes on without
(`Scheduler.goes_timeout`).
-/

namespace IlpConnector

theorem Flow.bind_done {σ κ ω α : Type} (f : Flow σ κ ω α) : f.bind .done = f := by
  induction f with
  | done a => rfl
  | act f next ih => exact congrArg (Flow.act f) (funext ih)
  | call c next ih => exact congrArg (Flow.call c) (funext ih)
  | spawn c next ih => exact congrArg (Flow.spawn c) (funext ih)
  | await t limit next ih => exact congrArg (Flow.await t limit) (funext ih)
  | sleep millis next ih => exact congrArg (Flow.sleep millis) (funext ih)
  | stall => rfl
  | crash m => rfl

theorem Flow.bind_assoc {σ κ ω α β γ : Type} (f : Flow σ κ ω α) (g : α → Flow σ κ ω β)
    (k : β → Flow σ κ ω γ) : (f.bind g).bind k = f.bind fun a => (g a).bind k := by
  induction f with
  | done a => rfl
  | act f next ih => exact congrArg (Flow.act f) (funext ih)
  | call c next ih => exact congrArg (Flow.call c) (funext ih)
  | spawn c next ih => exact congrArg (Flow.spawn c) (funext ih)
  | await t limit next ih => exact congrArg (Flow.await t limit) (funext ih)
  | sleep millis next ih => exact congrArg (Flow.sleep millis) (funext ih)
  | stall => rfl
  | crash m => rfl

namespace Scheduler

variable {σ κ ω : Type} {program : κ → Flow σ κ ω ω} {s s' : Scheduler σ κ ω} {id : Nat}

/-- Where a run of the scheduler is: the tasks, and the one that has its turn. -/
abbrev Point (σ κ ω : Type) : Type 1 := Scheduler σ κ ω × Option (Nat × Flow σ κ ω ω)

/-- So many moves lead from one point to the other. -/
def Goes (program : κ → Flow σ κ ω ω) (moves : Nat) (x y : Point σ κ ω) : Prop :=
  ∀ n, run program (n + moves) x.1 x.2 = run program n y.1 y.2

theorem Goes.trans {j k : Nat} {x y z : Point σ κ ω} (h : Goes program j x y)
    (h' : Goes program k y z) : Goes program (k + j) x z := fun n => by
  rw [← Nat.add_assoc, h, h']

/-! ## A task has its turn -/

theorem goes_act {ρ : Type} (f : σ → ρ × σ) (next : ρ → Flow σ κ ω ω) :
    Goes program 1 (s, some (id, .act f next))
      ({ s with state := (f s.state).2 }, some (id, next (f s.state).1)) := fun _ => rfl

theorem goes_call (c : κ) (next : ω → Flow σ κ ω ω) :
    Goes program 1 (s, some (id, .call c next)) (s, some (id, (program c).bind next)) :=
  fun _ => rfl

/-- Where nothing is left to do after a procedure, the task goes on as the procedure. -/
theorem goes_run (c : κ) :
    Goes program 1 (s, some (id, .call c .done)) (s, some (id, program c)) := by
  have h : Goes program 1 (s, some (id, .call c .done)) _ := goes_call c .done
  rwa [Flow.bind_done] at h

theorem goes_spawn (c : κ) (next : Nat → Flow σ κ ω ω) :
    Goes program 1 (s, some (id, .spawn c next))
      ((s.add (program c)).2, some (id, next s.nextId)) := fun _ => rfl

theorem goes_await (t : Nat) (limit : Option Nat) (next : Option (Ending ω) → Flow σ κ ω ω) :
    Goes program 1 (s, some (id, .await t limit next))
      (s.lull ⟨⟨id, some t, next⟩, limit.map (s.clock + ·)⟩, none) := fun _ => rfl

theorem goes_sleep (millis : Nat) (next : Unit → Flow σ κ ω ω) :
    Goes program 1 (s, some (id, .sleep millis next))
      (s.lull ⟨.free id (next ()), some (s.clock + millis)⟩, none) := fun _ => rfl

theorem goes_stall : Goes program 1 (s, some (id, .stall)) (s, none) := fun _ => rfl

theorem goes_done (o : ω) :
    Goes program 1 (s, some (id, .done o)) (s.finish id (.finished o), none) := fun _ => rfl

/-! ## No task has its turn -/

theorem goes_pick {t : Turn σ κ ω} (h : s.pick = some (t, s')) :
    Goes program 1 (s, none) (s', some (t.id, t.next none)) := fun n => by
  rw [run, h]

theorem goes_advance {time : Nat} (h : s.pick = none) (hs : s.isSettled = false)
    (ht : s.nextDeadline? = some time) : Goes program 1 (s, none) (s.advanceTo time, none) :=
  fun n => by
    rw [run, h]
    dsimp only
    rw [hs, ht]
    rfl

theorem run_of_isSettled (h : s.pick = none) (hs : s.isSettled = true) (n : Nat) :
    run program n s none = s := by
  cases n with
  | zero => rfl
  | succ n =>
    rw [run, h]
    exact if_pos hs

theorem Goes.run_eq {moves : Nat} (limit : Nat) {x : Point σ κ ω}
    (h : Goes program moves x (s', none)) (hlimit : moves ≤ limit) (hpick : s'.pick = none)
    (hs : s'.isSettled = true) : run program limit x.1 x.2 = s' := by
  obtain ⟨n, rfl⟩ := Nat.exists_eq_add_of_le' hlimit
  rw [h, run_of_isSettled hpick hs]

/-! ## A main task -/

/-- A scheduler whose main task has not ended yet. -/
def within (id : Nat) (state : σ) (clock nextId : Nat) (ready : List (Turn σ κ ω))
    (asleep : List (Sleeper σ κ ω)) : Scheduler σ κ ω :=
  { state, clock, nextId, ready, asleep, main := some id, watched := [id] }

section Main

variable {state : σ} {clock nextId t limit : Nat} {o : ω}
  {next : Option (Ending ω) → Flow σ κ ω ω} {asleep : List (Sleeper σ κ ω)}

theorem goes_main (f : Option (Ending ω) → Flow σ κ ω ω) (awaited : Option Nat) :
    Goes program 1 (within id state clock nextId [⟨id, awaited, f⟩] asleep, none)
      (within id state clock nextId [] asleep, some (id, f none)) := by
  refine goes_pick (t := ⟨id, awaited, f⟩) ?_
  simp [pick, within]

/-- A main task that gets to its end, with nothing else to do, has ended so. -/
theorem perform_eq {c : κ} {moves : Nat} (hready : s.ready = []) (hasleep : s.asleep = [])
    (h : Goes program moves
      (within s.nextId s.state s.clock (s.nextId + 1) [] [], some (s.nextId, program c))
      (within s.nextId state clock nextId [] asleep, some (s.nextId, .done o)))
    (hmoves : moves + 2 ≤ moveLimit) (hfree : ∀ w ∈ asleep, w.turn.awaited ≠ some s.nextId) :
    perform program c s = (some (.finished o), { state, clock, nextId, asleep }) := by
  have hbegin : Goes program 1
      (within s.nextId s.state s.clock (s.nextId + 1) [.free s.nextId (program c)] [], none)
      (within s.nextId s.state s.clock (s.nextId + 1) [] [], some (s.nextId, program c)) :=
    goes_main (fun _ => program c) none
  have hfinish : (within s.nextId state clock nextId [] asleep).finish s.nextId (.finished o)
      = { within s.nextId state clock nextId [] asleep with
          endings := [(s.nextId, .finished o)] } := by
    have hnone : ∀ w ∈ asleep, (w.turn.awaited == some s.nextId) = false := fun w hw =>
      beq_eq_false_iff_ne.mpr (hfree w hw)
    -- No task waits for the main one, so its end wakes none.
    have hwoken : asleep.filter (fun w => w.turn.awaited == some s.nextId) = [] :=
      List.filter_eq_nil_iff.mpr fun w hw => by rw [hnone w hw]; simp
    have hothers : asleep.filter (not ∘ fun w => w.turn.awaited == some s.nextId) = asleep :=
      List.filter_eq_self.mpr fun w hw => by simp [hnone w hw]
    simp only [finish, within, List.partition_eq_filter_filter, hwoken, hothers]
    simp
  have hend := (hbegin.trans (h.trans (goes_done o))).run_eq moveLimit (by omega)
    (by rw [hfinish]; rfl) (by rw [hfinish]; simp [isSettled, within])
  have hadd : s.add (program c) = (s.nextId, { s with
      nextId := s.nextId + 1, ready := [.free s.nextId (program c)] }) := by
    rw [add, hready]
    rfl
  unfold perform
  rw [hadd]
  dsimp only
  rw [hfinish] at hend
  simp only [within, hasleep] at hend ⊢
  rw [hend]
  simp

/-! ### A main task that waits for another one -/

/-- The main task is asleep, or its time is up and it has not had its turn since. -/
inductive Waits (w : Sleeper σ κ ω) : List (Turn σ κ ω) → List (Sleeper σ κ ω) → Prop where
  | asleep : Waits w [] [w]
  | due : Waits w [w.turn] []

theorem goes_actWithin {ρ : Type} {ready : List (Turn σ κ ω)} (f : σ → ρ × σ)
    (next : ρ → Flow σ κ ω ω) :
    Goes program 1 (within id state clock nextId ready asleep, some (t, .act f next))
      (within id (f state).2 clock nextId ready asleep, some (t, next (f state).1)) :=
  goes_act f next

/-- The main task starts another one and waits for it. -/
theorem goes_beside (c : κ) :
    Goes program 3
      (within id state clock nextId [] [], some (id, .spawn c fun t => .await t (some limit) next))
      (within id state clock (nextId + 1) [] [⟨⟨id, some nextId, next⟩, some (clock + limit)⟩],
        some (nextId, program c)) := by
  refine (goes_spawn c _).trans ((goes_await nextId (some limit) next).trans
    (goes_pick (t := .free nextId (program c)) ?_))
  by_cases hne : nextId = id <;> simp [pick, within, lull, add, Turn.free, hne]

/-- When no task is ready, the clock goes on to the first time for which one waits. -/
theorem goes_clock {time : Nat} {due rest : List (Sleeper σ κ ω)}
    (hdue : asleep.filter (fun w => w.deadline.any (· ≤ time)) = due)
    (hrest : asleep.filter (fun w => !w.deadline.any (· ≤ time)) = rest)
    (htime : (asleep.filterMap Sleeper.deadline).min? = some time) (hclock : clock ≤ time) :
    Goes program 1 (within id state clock nextId [] asleep, none)
      (within id state time nextId (due.map Sleeper.turn) rest, none) := by
  have hadvance : (within id state clock nextId [] asleep).advanceTo time
      = within id state time nextId (due.map Sleeper.turn) rest := by
    simp only [advanceTo, within, List.partition_eq_filter_filter, hdue, List.nil_append,
      Nat.max_eq_right hclock, ← hrest]
    rfl
  rw [← hadvance]
  exact goes_advance rfl (by simp [isSettled, within]) htime

/-- What ends until the main task's time is up gets its turn before the main task. -/
theorem goes_wake {delay : Nat} (g : Flow σ κ ω ω) (hne : t ≠ id) (hdelay : delay ≤ limit) :
    let w : Sleeper σ κ ω := ⟨⟨id, some t, next⟩, some (clock + limit)⟩
    ∃ ready asleep, Waits w ready asleep ∧ Goes program 2
      (within id state clock nextId [] [w, ⟨.free t g, some (clock + delay)⟩], none)
      (within id state (clock + delay) nextId ready asleep, some (t, g)) := by
  intro w
  have htime : ([w, ⟨.free t g, some (clock + delay)⟩].filterMap Sleeper.deadline).min?
      = some (clock + delay) := by
    simp [w, hdelay]
  -- At just its own time the main task is ready as well, and lets the other one go first.
  by_cases heq : delay = limit
  · subst heq
    refine ⟨_, _, .due, (goes_clock rfl rfl htime (Nat.le_add_right _ _)).trans
      (goes_pick (t := .free t g) ?_)⟩
    simp [pick, within, w, Turn.free, hne]
  · have hlt : ¬ clock + limit ≤ clock + delay := by omega
    refine ⟨_, _, .asleep, (goes_clock rfl rfl htime (Nat.le_add_right _ _)).trans
      (goes_pick (t := .free t g) ?_)⟩
    simp [pick, within, w, Turn.free, hne, hlt]

/-- The end of the task that the main task waits for gives the turn to the main task. -/
theorem goes_hear {ready : List (Turn σ κ ω)} {time : Option Nat} (o : ω) (hne : t ≠ id)
    (h : Waits ⟨⟨id, some t, next⟩, time⟩ ready asleep) :
    Goes program 2 (within id state clock nextId ready asleep, some (t, .done o))
      (within id state clock nextId [] [], some (id, next (some (.finished o)))) := by
  have hfinish : (within id state clock nextId ready asleep).finish t (.finished o)
      = within id state clock nextId [⟨id, none, fun _ => next (some (.finished o))⟩] [] := by
    cases h <;> simp [finish, within, Turn.hear, hne]
  have hdone : Goes program 1 (within id state clock nextId ready asleep, some (t, .done o))
      (within id state clock nextId [⟨id, none, fun _ => next (some (.finished o))⟩] [], none) :=
    hfinish ▸ goes_done o
  exact hdone.trans (goes_main (fun _ => next (some (.finished o))) none)

/-- When its time is up before any other one's, the main task goes on without what it waits for. -/
theorem goes_timeout (hlate : ∀ v ∈ asleep, ∃ time, v.deadline = some time ∧ clock + limit < time) :
    Goes program 2
      (within id state clock nextId [] (⟨⟨id, some t, next⟩, some (clock + limit)⟩ :: asleep), none)
      (within id state (clock + limit) nextId [] asleep, some (id, next none)) := by
  have hno : ∀ v ∈ asleep, v.deadline.any (· ≤ clock + limit) = false := by
    intro v hv
    obtain ⟨time, htime, hlt⟩ := hlate v hv
    rw [htime]
    simpa using hlt
  set w : Sleeper σ κ ω := ⟨⟨id, some t, next⟩, some (clock + limit)⟩ with hw
  have hdue : (w :: asleep).filter (fun v => v.deadline.any (· ≤ clock + limit)) = [w] := by
    rw [List.filter_cons_of_pos (by simp [hw]), List.filter_eq_nil_iff.mpr]
    exact fun v hv => by rw [hno v hv]; simp
  have hrest : (w :: asleep).filter (fun v => !v.deadline.any (· ≤ clock + limit)) = asleep := by
    rw [List.filter_cons_of_neg (by simp [hw]), List.filter_eq_self]
    exact fun v hv => by rw [hno v hv]; rfl
  have htime : ((w :: asleep).filterMap Sleeper.deadline).min? = some (clock + limit) := by
    rw [List.min?_eq_some_iff]
    refine ⟨List.mem_filterMap.mpr ⟨w, List.mem_cons_self, rfl⟩, fun time htime => ?_⟩
    obtain ⟨v, hv, hdeadline⟩ := List.mem_filterMap.mp htime
    rcases List.mem_cons.mp hv with rfl | hv
    · exact Nat.le_of_eq (Option.some.inj hdeadline)
    · obtain ⟨time', htime', hlt⟩ := hlate v hv
      rw [htime', Option.some.injEq] at hdeadline
      exact hdeadline ▸ Nat.le_of_lt hlt
  exact (goes_clock hdue hrest htime (Nat.le_add_right _ _)).trans (goes_main next (some t))

end Main

end Scheduler

end IlpConnector
