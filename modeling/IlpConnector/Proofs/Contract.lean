import IlpConnector.Proofs.Scheduling
import Mathlib.Logic.Relation

/-!
# What tasks promise each other

A `Contract` says what tasks may do to the common state, and so what a task may find when it goes on
after others have had their turns.  A task that keeps to it (`Flow.Meets`) does so from whatever
state the others leave, and reaches what it is for.  If all procedures keep to a contract, then so
do all tasks at every moment, in whatever order they get their turns (`Scheduler.Upholds.steps`).

A task may do less once it has waited than when it begins (`Flow.Settles`).  Then all tasks that
wait are bound so, in whatever order they have got their turns (`Scheduler.Settling.steps`).
-/

namespace IlpConnector

/-- What may become of the common state, from a start on, which procedures there may be, and what is
so when one of them has ended. -/
structure Contract (σ κ ω : Type) where
  start : σ
  Leads : σ → σ → Prop
  refl : ∀ x, Leads x x
  trans : ∀ {x y z}, Leads x y → Leads y z → Leads x z
  Allows : κ → Prop
  Ensures : κ → ω → σ → Prop

namespace Flow

variable {σ κ ω α β : Type} {C : Contract σ κ ω} {x y : σ} {P Q : α → σ → Prop}

/-- From a state on, the task keeps to the contract, and ends only with what it is for. -/
def Meets (C : Contract σ κ ω) : Flow σ κ ω α → σ → (α → σ → Prop) → Prop
  | done a, x, Q => ∀ y, C.Leads x y → Q a y
  | act f next, x, Q =>
    ∀ y, C.Leads x y → C.Leads y (f y).2 ∧ (next (f y).1).Meets C (f y).2 Q
  | call c next, x, Q =>
    C.Allows c ∧ ∀ o y, C.Leads x y → C.Ensures c o y → (next o).Meets C y Q
  | spawn c next, x, Q => C.Allows c ∧ ∀ t, (next t).Meets C x Q
  | await _ _ next, x, Q => ∀ e, (next e).Meets C x Q
  | sleep _ next, x, Q => (next ()).Meets C x Q
  | stall, _, _ | crash _, _, _ => True

theorem Meets.mono {f : Flow σ κ ω α} (h : f.Meets C x Q) (hxy : C.Leads x y) :
    f.Meets C y Q := by
  induction f with
  | done a => exact fun z hz => h z (C.trans hxy hz)
  | act f next ih => exact fun z hz => h z (C.trans hxy hz)
  | call c next ih => exact ⟨h.1, fun o z hz => h.2 o z (C.trans hxy hz)⟩
  | spawn c next ih => exact ⟨h.1, fun t => ih t (h.2 t)⟩
  | await t limit next ih => exact fun e => ih e (h e)
  | sleep millis next ih => exact ih () h
  | stall => trivial
  | crash m => trivial

theorem meets_bind {f : Flow σ κ ω α} {k : α → Flow σ κ ω β} {Q : β → σ → Prop}
    (h : f.Meets C x P) (hk : ∀ a y, C.Leads x y → P a y → (k a).Meets C y Q) :
    (f.bind k).Meets C x Q := by
  induction f generalizing x with
  | done a => exact hk a x (C.refl x) (h x (C.refl x))
  | act f next ih =>
    intro y hy
    obtain ⟨hstep, hnext⟩ := h y hy
    exact ⟨hstep, ih _ hnext fun a z hz => hk a z (C.trans hy (C.trans hstep hz))⟩
  | call c next ih =>
    exact ⟨h.1, fun o y hy ho => ih o (h.2 o y hy ho) fun a z hz => hk a z (C.trans hy hz)⟩
  | spawn c next ih => exact ⟨h.1, fun t => ih t (h.2 t) hk⟩
  | await t limit next ih => exact fun e => ih e (h e) hk
  | sleep millis next ih => exact ih () h hk
  | stall => trivial
  | crash m => trivial

theorem Meets.imp {f : Flow σ κ ω α} (h : f.Meets C x P)
    (hPQ : ∀ a y, C.Leads x y → P a y → Q a y) : f.Meets C x Q := by
  induction f generalizing x with
  | done a => exact fun y hy => hPQ a y hy (h y hy)
  | act f next ih =>
    intro y hy
    obtain ⟨hstep, hnext⟩ := h y hy
    exact ⟨hstep, ih _ hnext fun a z hz => hPQ a z (C.trans hy (C.trans hstep hz))⟩
  | call c next ih =>
    exact ⟨h.1, fun o y hy ho => ih o (h.2 o y hy ho) fun a z hz => hPQ a z (C.trans hy hz)⟩
  | spawn c next ih => exact ⟨h.1, fun t => ih t (h.2 t) hPQ⟩
  | await t limit next ih => exact fun e => ih e (h e) hPQ
  | sleep millis next ih => exact ih () h hPQ
  | stall => trivial
  | crash m => trivial

theorem meets_read {f : σ → α} {k : α → Flow σ κ ω β} {Q : β → σ → Prop}
    (h : ∀ y, C.Leads x y → (k (f y)).Meets C y Q) : (Flow.read f >>= k).Meets C x Q :=
  fun y hy => ⟨C.refl y, h y hy⟩

theorem meets_take {f : σ → α × σ} {k : α → Flow σ κ ω β} {Q : β → σ → Prop}
    (h : ∀ y, C.Leads x y → C.Leads y (f y).2 ∧ (k (f y).1).Meets C (f y).2 Q) :
    (take f >>= k).Meets C x Q := h

theorem meets_run {c : κ} {k : ω → Flow σ κ ω β} {Q : β → σ → Prop} (hc : C.Allows c)
    (h : ∀ o y, C.Leads x y → C.Ensures c o y → (k o).Meets C y Q) :
    (run c >>= k).Meets C x Q := ⟨hc, h⟩

theorem meets_start {c : κ} {k : ℕ → Flow σ κ ω β} {Q : β → σ → Prop} (hc : C.Allows c)
    (h : ∀ t, (k t).Meets C x Q) : (Flow.start c >>= k).Meets C x Q := ⟨hc, h⟩

/-! ## Tasks that keep to any contract -/

/-- The task changes the state in one way only, and goes through or starts only some procedures. -/
def Only (G : σ → σ → Prop) (allowed : κ → Prop) : Flow σ κ ω α → Prop
  | done _ | stall | crash _ => True
  | act f next => ∀ x, G x (f x).2 ∧ (next (f x).1).Only G allowed
  | call c next => allowed c ∧ ∀ o, (next o).Only G allowed
  | spawn c next => allowed c ∧ ∀ t, (next t).Only G allowed
  | await _ _ next => ∀ e, (next e).Only G allowed
  | sleep _ next => (next ()).Only G allowed

section Only

variable {G : σ → σ → Prop} {allowed : κ → Prop}

theorem Only.bind {f : Flow σ κ ω α} {k : α → Flow σ κ ω β} (hf : f.Only G allowed)
    (hk : ∀ a, (k a).Only G allowed) : (f >>= k).Only G allowed := by
  change (f.bind k).Only G allowed
  induction f with
  | done a => exact hk a
  | act f next ih => exact fun x => ⟨(hf x).1, ih _ (hf x).2⟩
  | call c next ih => exact ⟨hf.1, fun o => ih o (hf.2 o)⟩
  | spawn c next ih => exact ⟨hf.1, fun t => ih t (hf.2 t)⟩
  | await t limit next ih => exact fun e => ih e (hf e)
  | sleep millis next ih => exact ih () hf
  | stall => trivial
  | crash m => trivial

theorem Only.mono {G' : σ → σ → Prop} {allowed' : κ → Prop} {f : Flow σ κ ω α}
    (hf : f.Only G allowed) (hG : ∀ x y, G x y → G' x y) (hallowed : ∀ c, allowed c → allowed' c) :
    f.Only G' allowed' := by
  induction f with
  | done a => trivial
  | act f next ih => exact fun x => ⟨hG _ _ (hf x).1, ih _ (hf x).2⟩
  | call c next ih => exact ⟨hallowed c hf.1, fun o => ih o (hf.2 o)⟩
  | spawn c next ih => exact ⟨hallowed c hf.1, fun t => ih t (hf.2 t)⟩
  | await t limit next ih => exact fun e => ih e (hf e)
  | sleep millis next ih => exact ih () hf
  | stall => trivial
  | crash m => trivial

theorem only_take {f : σ → α × σ} (h : ∀ x, G x (f x).2) :
    (take f : Flow σ κ ω α).Only G allowed := fun x => ⟨h x, trivial⟩

theorem only_change {f : σ → σ} (h : ∀ x, G x (f x)) :
    (change f : Flow σ κ ω Unit).Only G allowed := fun x => ⟨h x, trivial⟩

theorem only_read (hG : ∀ x, G x x) (f : σ → α) :
    (read f : Flow σ κ ω α).Only G allowed := fun x => ⟨hG x, trivial⟩

theorem only_run {c : κ} (h : allowed c) : (run c : Flow σ κ ω ω).Only G allowed :=
  ⟨h, fun _ => trivial⟩

theorem only_start {c : κ} (h : allowed c) : (Flow.start c : Flow σ κ ω ℕ).Only G allowed :=
  ⟨h, fun _ => trivial⟩

/-- What such a task does not undo is still so when it ends. -/
theorem Only.meets {f : Flow σ κ ω α} (h : f.Only G allowed) (hG : ∀ x y, G x y → C.Leads x y)
    (hallowed : ∀ c, allowed c → C.Allows c) {R : σ → Prop}
    (hR : ∀ x y, C.Leads x y → R x → R y) (hx : R x) : f.Meets C x fun _ => R := by
  induction f generalizing x with
  | done a => exact fun y hy => hR x y hy hx
  | act f next ih =>
    intro y hy
    have hstep : C.Leads y (f y).2 := hG _ _ (h y).1
    exact ⟨hstep, ih _ (h y).2 (hR _ _ hstep (hR x y hy hx))⟩
  | call c next ih => exact ⟨hallowed c h.1, fun o y hy _ => ih o (h.2 o) (hR x y hy hx)⟩
  | spawn c next ih => exact ⟨hallowed c h.1, fun t => ih t (h.2 t) hx⟩
  | await t limit next ih => exact fun e => ih e (h e) hx
  | sleep millis next ih => exact ih () h hx
  | stall => trivial
  | crash m => trivial

/-- Once it waits, the task changes the state in one way only, and goes through or starts only some
procedures; until then it goes through or starts others. -/
def Settles (G : σ → σ → Prop) (allowed others : κ → Prop) : Flow σ κ ω α → Prop
  | done _ | stall | crash _ => True
  | act f next => ∀ x, (next (f x).1).Settles G allowed others
  | call c next => others c ∧ ∀ o, (next o).Only G allowed
  | spawn c next => others c ∧ ∀ t, (next t).Settles G allowed others
  | await _ _ next => ∀ e, (next e).Only G allowed
  | sleep _ next => (next ()).Only G allowed

variable {others : κ → Prop}

theorem Only.settles {f : Flow σ κ ω α} (h : f.Only G allowed)
    (hallowed : ∀ c, allowed c → others c) : f.Settles G allowed others := by
  induction f with
  | done a => trivial
  | act f next ih => exact fun x => ih _ (h x).2
  | call c next ih => exact ⟨hallowed c h.1, h.2⟩
  | spawn c next ih => exact ⟨hallowed c h.1, fun t => ih t (h.2 t)⟩
  | await t limit next ih => exact h
  | sleep millis next ih => exact h
  | stall => trivial
  | crash m => trivial

theorem Settles.bind {f : Flow σ κ ω α} {k : α → Flow σ κ ω β} (hf : f.Settles G allowed others)
    (hk : ∀ a, (k a).Only G allowed) (hallowed : ∀ c, allowed c → others c) :
    (f >>= k).Settles G allowed others := by
  change (f.bind k).Settles G allowed others
  induction f with
  | done a => exact (hk a).settles hallowed
  | act f next ih => exact fun x => ih _ (hf x)
  | call c next ih => exact ⟨hf.1, fun o => (hf.2 o).bind hk⟩
  | spawn c next ih => exact ⟨hf.1, fun t => ih t (hf.2 t)⟩
  | await t limit next ih => exact fun e => (hf e).bind hk
  | sleep millis next ih => exact Only.bind hf hk
  | stall => trivial
  | crash m => trivial

theorem settles_take {f : σ → α × σ} {k : α → Flow σ κ ω β}
    (h : ∀ a, (k a).Settles G allowed others) : (take f >>= k).Settles G allowed others :=
  fun _ => h _

theorem settles_read {f : σ → α} {k : α → Flow σ κ ω β}
    (h : ∀ a, (k a).Settles G allowed others) : (read f >>= k).Settles G allowed others :=
  fun _ => h _

end Only

end Flow

/-- Every procedure that the contract allows keeps to it. -/
def Contract.Honored {σ κ ω : Type} (C : Contract σ κ ω) (program : κ → Flow σ κ ω ω) : Prop :=
  ∀ c, C.Allows c → ∀ x, C.Leads C.start x → (program c).Meets C x (C.Ensures c)

namespace Scheduler

variable {σ κ ω : Type} {program : κ → Flow σ κ ω ω} {C : Contract σ κ ω}
  {post : ℕ → ω → σ → Prop} {s s' : Scheduler σ κ ω} {p p' : Point σ κ ω} {id : ℕ}

/-- The tasks that have not got their turn. -/
def pending (s : Scheduler σ κ ω) : List (Turn σ κ ω) := s.ready ++ s.asleep.map Sleeper.turn

/-- Every task keeps to the contract from the present state on, and ends only with what is expected
of it. -/
structure Upholds (C : Contract σ κ ω) (post : ℕ → ω → σ → Prop) (p : Point σ κ ω) : Prop where
  state : C.Leads C.start p.1.state
  pending : ∀ t ∈ p.1.pending, ∀ e, (t.next e).Meets C p.1.state (post t.id)
  turn : ∀ t ∈ p.2, t.2.Meets C p.1.state (post t.1)
  ended : ∀ id o, (id, .finished o) ∈ p.1.endings → post id o p.1.state
  /-- Of a task that has not begun nothing is expected. -/
  fresh : ∀ id, p.1.nextId ≤ id → ∀ o x, post id o x

/-- What may happen next, in whatever order tasks get their turns: a procedure of some kind begins
as a task, the state changes from outside, a task that is ready gets its turn, the task that has its
turn goes on, or time passes. -/
inductive Step (program : κ → Flow σ κ ω ω) (May : κ → Prop) (Outside : σ → σ → Prop) :
    Point σ κ ω → Point σ κ ω → Prop
  | start {s : Scheduler σ κ ω} {turn : Option (ℕ × Flow σ κ ω ω)} {c : κ} (h : May c) :
      Step program May Outside (s, turn) ((s.add (program c)).2, turn)
  | outside {s : Scheduler σ κ ω} {turn : Option (ℕ × Flow σ κ ω ω)} {x : σ}
      (h : Outside s.state x) : Step program May Outside (s, turn) ({ s with state := x }, turn)
  | pick {s : Scheduler σ κ ω} {t : Turn σ κ ω} {before after : List (Turn σ κ ω)}
      (h : s.ready = before ++ t :: after) :
      Step program May Outside (s, none)
        ({ s with ready := before ++ after }, some (t.id, t.next none))
  | move {s : Scheduler σ κ ω} {id : ℕ} {f : Flow σ κ ω ω} :
      Step program May Outside (s, some (id, f))
        ((s.move program id f).1, (s.move program id f).2.map fun f => (id, f))
  | pass {s : Scheduler σ κ ω} (time : ℕ) :
      Step program May Outside (s, none) (s.advanceTo time, none)

theorem mem_pending {t : Turn σ κ ω} :
    t ∈ s.pending ↔ t ∈ s.ready ∨ ∃ w ∈ s.asleep, w.turn = t := by
  simp [pending]

theorem pending_add (f : Flow σ κ ω ω) {t : Turn σ κ ω} :
    t ∈ (s.add f).2.pending ↔ t ∈ s.pending ∨ t = .free s.nextId f := by
  simp only [mem_pending, add, List.mem_append, List.mem_singleton]
  exact or_right_comm

theorem pending_lull (w : Sleeper σ κ ω) {t : Turn σ κ ω} :
    t ∈ (s.lull w).pending ↔ t ∈ s.pending ∨ w.turn = t := by
  simp only [mem_pending, lull, List.mem_append, List.mem_singleton, or_and_right, exists_or,
    exists_eq_left, or_assoc]

theorem pending_advanceTo (time : ℕ) {t : Turn σ κ ω} :
    t ∈ (s.advanceTo time).pending ↔ t ∈ s.pending := by
  simp only [mem_pending, advanceTo, List.partition_eq_filter_filter, List.mem_append,
    List.mem_map, List.mem_filter, Function.comp, or_assoc]
  refine or_congr_right ⟨?_, ?_⟩
  · rintro (⟨w, ⟨hw, -⟩, h⟩ | ⟨w, ⟨hw, -⟩, h⟩) <;> exact ⟨w, hw, h⟩
  · rintro ⟨w, hw, h⟩
    cases hdue : w.deadline.any (· ≤ time) with
    | true => exact Or.inl ⟨w, ⟨hw, hdue⟩, h⟩
    | false => exact Or.inr ⟨w, ⟨hw, by simp [hdue]⟩, h⟩

/-- When a task ends, the others are as before, or hear of it. -/
theorem pending_finish {e : Ending ω} {t : Turn σ κ ω} (h : t ∈ (s.finish id e).pending) :
    t ∈ s.pending ∨ ∃ u ∈ s.pending, t = u.hear id e := by
  simp only [mem_pending, finish, List.partition_eq_filter_filter, List.mem_append,
    List.mem_map, List.mem_filter, Function.comp] at h ⊢
  rcases h with ⟨u, hu | ⟨w, ⟨hw, -⟩, rfl⟩, rfl⟩ | ⟨w, ⟨hw, -⟩, rfl⟩
  · exact Or.inr ⟨u, Or.inl hu, rfl⟩
  · exact Or.inr ⟨w.turn, Or.inr ⟨w, hw, rfl⟩, rfl⟩
  · exact Or.inl (Or.inr ⟨w, hw, rfl⟩)

theorem asleep_finish_subset (e : Ending ω) : (s.finish id e).asleep ⊆ s.asleep := by
  simp only [finish, List.partition_eq_filter_filter]
  exact List.filter_sublist.subset

theorem asleep_advanceTo_subset (time : ℕ) : (s.advanceTo time).asleep ⊆ s.asleep := by
  simp only [advanceTo, List.partition_eq_filter_filter]
  exact List.filter_sublist.subset

theorem subset_of_pick {t : Turn σ κ ω} {before after : List (Turn σ κ ω)}
    (h : s.ready = before ++ t :: after) : before ++ after ⊆ s.ready :=
  h ▸ ((List.sublist_cons_self t after).append_left before).subset

/-! ## One step -/

section Step

variable {f : Flow σ κ ω ω} {turn : Option (ℕ × Flow σ κ ω ω)} (hC : C.Honored program)
  (hpost : ∀ id o {x y}, C.Leads x y → post id o x → post id o y)

include hpost in
theorem Upholds.change (h : Upholds C post (s, turn)) {x : σ} (hx : C.Leads s.state x) :
    Upholds C post ({ s with state := x }, turn) where
  state := C.trans h.state hx
  pending t ht e := (h.pending t ht e).mono hx
  turn t ht := (h.turn t ht).mono hx
  ended id o ho := hpost id o hx (h.ended id o ho)
  fresh := h.fresh

include hC in
theorem Upholds.start (h : Upholds C post (s, turn)) {c : κ} (hc : C.Allows c) :
    Upholds C post ((s.add (program c)).2, turn) where
  state := h.state
  pending t ht e := by
    rcases (pending_add _).mp ht with ht | rfl
    · exact h.pending t ht e
    · exact (hC c hc _ h.state).imp fun o y _ _ => h.fresh _ (Nat.le_refl _) o y
  turn := h.turn
  ended := h.ended
  fresh id hid := h.fresh id (Nat.le_of_succ_le hid)

/-- The tasks without the one that has its turn. -/
theorem Upholds.others (h : Upholds C post (s, turn)) : Upholds C post (s, none) :=
  ⟨h.state, h.pending, nofun, h.ended, h.fresh⟩

theorem Upholds.give (h : Upholds C post (s, none)) (hf : f.Meets C s.state (post id)) :
    Upholds C post (s, some (id, f)) := by
  refine ⟨h.state, h.pending, fun t ht => ?_, h.ended, h.fresh⟩
  obtain rfl := Option.some.inj ht
  exact hf

theorem Upholds.pick {t : Turn σ κ ω} {before after : List (Turn σ κ ω)}
    (h : Upholds C post (s, none)) (hready : s.ready = before ++ t :: after) :
    Upholds C post ({ s with ready := before ++ after }, some (t.id, t.next none)) := by
  have hrest : before ++ after ⊆ s.ready := subset_of_pick hready
  refine .give ⟨h.state, fun u hu => h.pending u ?_, nofun, h.ended, h.fresh⟩ ?_
  · exact mem_pending.mpr ((mem_pending.mp hu).imp_left fun hu => hrest hu)
  · exact h.pending t (mem_pending.mpr (Or.inl (by simp [hready]))) none

theorem Upholds.pass (h : Upholds C post (s, none)) (time : ℕ) :
    Upholds C post (s.advanceTo time, none) where
  state := h.state
  pending t ht := h.pending t ((pending_advanceTo time).mp ht)
  turn := nofun
  ended := h.ended
  fresh := h.fresh

theorem Upholds.finish {e : Ending ω} (h : Upholds C post (s, none))
    (he : ∀ o, e = .finished o → post id o s.state) : Upholds C post (s.finish id e, none) where
  state := h.state
  pending t ht e' := by
    rcases pending_finish ht with ht | ⟨u, hu, rfl⟩
    · exact h.pending t ht e'
    · have hu' := h.pending u hu
      unfold Turn.hear
      split
      · exact hu' _
      · exact hu' e'
  turn := nofun
  ended id' o ho := by
    change (id', Ending.finished o) ∈ ite _ _ _ at ho
    split at ho
    · rcases List.mem_append.mp ho with ho | ho
      · exact h.ended id' o ho
      · obtain ⟨rfl, rfl⟩ := Prod.mk.inj (List.mem_singleton.mp ho)
        exact he o rfl
    · exact h.ended id' o ho
  fresh := h.fresh

theorem Upholds.lull {w : Sleeper σ κ ω} (h : Upholds C post (s, none))
    (hw : ∀ e, (w.turn.next e).Meets C s.state (post w.turn.id)) :
    Upholds C post (s.lull w, none) where
  state := h.state
  pending t ht := by
    rcases (pending_lull w).mp ht with ht | rfl
    · exact h.pending t ht
    · exact hw
  turn := nofun
  ended := h.ended
  fresh := h.fresh

include hC hpost

/-- A task that has its turn keeps to the contract in what it does next. -/
theorem Upholds.move (h : Upholds C post (s, some (id, f))) :
    Upholds C post ((s.move program id f).1, (s.move program id f).2.map fun f => (id, f)) ∧
      C.Leads s.state (s.move program id f).1.state := by
  have hf : f.Meets C s.state (post id) := h.turn _ rfl
  have hothers := h.others
  cases f with
  | done o =>
    refine ⟨hothers.finish fun o' ho => ?_, C.refl _⟩
    obtain rfl := Ending.finished.inj ho
    exact hf _ (C.refl _)
  | act g next =>
    obtain ⟨hstep, hnext⟩ := hf _ (C.refl _)
    exact ⟨(hothers.change hpost hstep).give hnext, hstep⟩
  | call c next =>
    refine ⟨hothers.give (Flow.meets_bind (hC c hf.1 _ h.state) fun o y hy ho => ?_), C.refl _⟩
    exact hf.2 o y hy ho
  | spawn c next => exact ⟨(hothers.start hC hf.1).give (hf.2 _), C.refl _⟩
  | await t limit next => exact ⟨hothers.lull hf, C.refl _⟩
  | sleep millis next => exact ⟨hothers.lull fun _ => hf, C.refl _⟩
  | stall => exact ⟨hothers, C.refl _⟩
  | crash m => exact ⟨hothers.finish nofun, C.refl _⟩

variable {May : κ → Prop} {Outside : σ → σ → Prop} (hMay : ∀ c, May c → C.Allows c)
  (hOutside : ∀ x y, Outside x y → C.Leads x y)

include hMay hOutside

theorem Upholds.step (h : Upholds C post p) (hstep : Step program May Outside p p') :
    Upholds C post p' ∧ C.Leads p.1.state p'.1.state := by
  cases hstep with
  | start hc => exact ⟨h.start hC (hMay _ hc), C.refl _⟩
  | outside hx => exact ⟨h.change hpost (hOutside _ _ hx), hOutside _ _ hx⟩
  | pick hready => exact ⟨h.pick hready, C.refl _⟩
  | move => exact h.move hC hpost
  | pass time => exact ⟨h.pass time, C.refl _⟩

/-! ## Whole runs -/

theorem Upholds.steps (h : Upholds C post p)
    (hsteps : Relation.ReflTransGen (Step program May Outside) p p') :
    Upholds C post p' ∧ C.Leads p.1.state p'.1.state := by
  induction hsteps with
  | refl => exact ⟨h, C.refl _⟩
  | tail _ hstep ih =>
    obtain ⟨hp, hleads⟩ := ih
    obtain ⟨hp', hleads'⟩ := hp.step hC hpost hMay hOutside hstep
    exact ⟨hp', C.trans hleads hleads'⟩

end Step

/-! ## Tasks that have waited -/

section Settling

variable {G : σ → σ → Prop} {allowed others : κ → Prop}

/-- Every task changes the state in one way only once it has waited, and goes through or starts only
some procedures from then on. -/
structure Settling (G : σ → σ → Prop) (allowed others : κ → Prop) (p : Point σ κ ω) : Prop where
  ready : ∀ t ∈ p.1.ready, t.id < p.1.nextId ∧ ∀ e, (t.next e).Settles G allowed others
  asleep : ∀ w ∈ p.1.asleep, w.turn.id < p.1.nextId ∧ ∀ e, (w.turn.next e).Only G allowed
  turn : ∀ t ∈ p.2, t.1 < p.1.nextId ∧ t.2.Settles G allowed others

variable {f : Flow σ κ ω ω} {turn : Option (ℕ × Flow σ κ ω ω)}

theorem Settling.add (h : Settling G allowed others (s, turn)) (hf : f.Settles G allowed others) :
    Settling G allowed others ((s.add f).2, turn) where
  ready t ht := by
    rcases List.mem_append.mp ht with ht | ht
    · exact ⟨Nat.lt_succ_of_lt (h.ready t ht).1, (h.ready t ht).2⟩
    · obtain rfl := List.mem_singleton.mp ht
      exact ⟨Nat.lt_succ_self _, fun _ => hf⟩
  asleep w hw := ⟨Nat.lt_succ_of_lt (h.asleep w hw).1, (h.asleep w hw).2⟩
  turn t ht := ⟨Nat.lt_succ_of_lt (h.turn t ht).1, (h.turn t ht).2⟩

theorem Settling.lull {w : Sleeper σ κ ω} (h : Settling G allowed others (s, turn))
    (hid : w.turn.id < s.nextId) (hw : ∀ e, (w.turn.next e).Only G allowed) :
    Settling G allowed others (s.lull w, none) where
  ready := h.ready
  asleep v hv := by
    rcases List.mem_append.mp hv with hv | hv
    · exact h.asleep v hv
    · obtain rfl := List.mem_singleton.mp hv
      exact ⟨hid, hw⟩
  turn := nofun

theorem Settling.give (h : Settling G allowed others (s, turn)) (hid : id < s.nextId)
    (hf : f.Settles G allowed others) : Settling G allowed others (s, some (id, f)) := by
  refine ⟨h.ready, h.asleep, fun t ht => ?_⟩
  obtain rfl := Option.some.inj ht
  exact ⟨hid, hf⟩

theorem Settling.pick {t : Turn σ κ ω} {before after : List (Turn σ κ ω)}
    (h : Settling G allowed others (s, none)) (hready : s.ready = before ++ t :: after) :
    Settling G allowed others ({ s with ready := before ++ after }, some (t.id, t.next none)) := by
  have hrest : before ++ after ⊆ s.ready := subset_of_pick hready
  obtain ⟨hid, hnext⟩ := h.ready t (by simp [hready])
  exact .give ⟨fun u hu => h.ready u (hrest hu), h.asleep, h.turn⟩ hid (hnext none)

variable (hallowed : ∀ c, allowed c → others c)

include hallowed

theorem Settling.wake (h : Settling G allowed others (s, turn)) {t : Turn σ κ ω}
    (ht : t ∈ s.pending) : t.id < s.nextId ∧ ∀ e, (t.next e).Settles G allowed others := by
  rcases mem_pending.mp ht with ht | ⟨w, hw, rfl⟩
  · exact h.ready t ht
  · exact ⟨(h.asleep w hw).1, fun e => ((h.asleep w hw).2 e).settles hallowed⟩

theorem Settling.finish (h : Settling G allowed others (s, turn)) (e : Ending ω) :
    Settling G allowed others (s.finish id e, none) where
  ready t ht := by
    rcases pending_finish (mem_pending.mpr (Or.inl ht)) with ht | ⟨u, hu, rfl⟩
    · exact h.wake hallowed ht
    · obtain ⟨hid, hnext⟩ := h.wake hallowed hu
      unfold Turn.hear
      split
      · exact ⟨hid, fun _ => hnext _⟩
      · exact ⟨hid, hnext⟩
  asleep w hw := h.asleep w (asleep_finish_subset e hw)
  turn := nofun

theorem Settling.pass (h : Settling G allowed others (s, turn)) (time : ℕ) :
    Settling G allowed others (s.advanceTo time, none) where
  ready _ ht := h.wake hallowed ((pending_advanceTo time).mp (mem_pending.mpr (Or.inl ht)))
  asleep w hw := h.asleep w (asleep_advanceTo_subset time hw)
  turn := nofun

variable (hprogram : ∀ c, others c → (program c).Settles G allowed others)

include hprogram

theorem Settling.move (h : Settling G allowed others (s, some (id, f))) :
    Settling G allowed others
      ((s.move program id f).1, (s.move program id f).2.map fun f => (id, f)) := by
  obtain ⟨hid, hf⟩ := h.turn _ rfl
  cases f with
  | done o => exact h.finish hallowed _
  | act g next =>
    have hstate : Settling G allowed others
        ({ s with state := (g s.state).2 }, some (id, .act g next)) :=
      ⟨h.ready, h.asleep, h.turn⟩
    exact hstate.give hid (hf _)
  | call c next => exact h.give hid ((hprogram c hf.1).bind hf.2 hallowed)
  | spawn c next =>
    exact (h.add (hprogram c hf.1)).give (Nat.lt_succ_of_lt hid) (hf.2 _)
  | await t limit next => exact h.lull hid hf
  | sleep millis next => exact h.lull hid fun _ => hf
  | stall => exact ⟨h.ready, h.asleep, nofun⟩
  | crash m => exact h.finish hallowed _

theorem Settling.steps {Outside : σ → σ → Prop} (h : Settling G allowed others p)
    (hsteps : Relation.ReflTransGen (Step program others Outside) p p') :
    Settling G allowed others p' := by
  induction hsteps with
  | refl => exact h
  | tail _ hstep ih =>
    cases hstep with
    | start hc => exact ih.add (hprogram _ hc)
    | outside hx => exact ⟨ih.ready, ih.asleep, ih.turn⟩
    | pick hready => exact ih.pick hready
    | move => exact ih.move hallowed hprogram
    | pass time => exact ih.pass hallowed time

end Settling

theorem exists_of_pick {t : Turn σ κ ω} (h : s.pick = some (t, s')) :
    ∃ before after, s.ready = before ++ t :: after ∧ s' = { s with ready := before ++ after } := by
  unfold pick at h
  split at h
  · rename_i u hu
    obtain ⟨rfl, rfl⟩ := Prod.mk.inj (Option.some.inj h)
    obtain ⟨hmain, before, after, hready, hbefore⟩ := List.find?_eq_some_iff_append.mp hu
    refine ⟨before, after, hready, ?_⟩
    rw [hready, List.eraseP_append_right _ (by simpa using hbefore)]
    simp only [List.eraseP_cons, hmain, cond_true]
  · split at h
    · cases h
    · rename_i u rest hready
      obtain ⟨rfl, rfl⟩ := Prod.mk.inj (Option.some.inj h)
      exact ⟨[], rest, hready, rfl⟩

/-- The turns that a run of the scheduler gives are steps. -/
theorem exists_steps_run (program : κ → Flow σ κ ω ω) (May : κ → Prop) (Outside : σ → σ → Prop)
    (n : ℕ) (p : Point σ κ ω) :
    ∃ turn, Relation.ReflTransGen (Step program May Outside) p (run program n p.1 p.2, turn) := by
  induction n generalizing p with
  | zero => exact ⟨p.2, .refl⟩
  | succ n ih =>
    obtain ⟨s, - | ⟨id, f⟩⟩ := p
    · dsimp only [run]
      split
      · rename_i t s' hpick
        obtain ⟨before, after, hready, rfl⟩ := exists_of_pick hpick
        obtain ⟨turn, h⟩ := ih (_, some (t.id, t.next none))
        exact ⟨turn, .head (.pick hready) h⟩
      · split_ifs
        · exact ⟨none, .refl⟩
        · split
          · rename_i time _
            obtain ⟨turn, h⟩ := ih (s.advanceTo time, none)
            exact ⟨turn, .head (.pass time) h⟩
          · exact ⟨none, .refl⟩
    · obtain ⟨turn, h⟩ := ih ((s.move program id f).1, (s.move program id f).2.map (id, ·))
      exact ⟨turn, .head .move h⟩

/-- What a main task and the others keep to from its first move on, they keep to until its end, when
no other task is ready. -/
theorem Upholds.perform {c : κ} {ρ : Type} {g : σ → ρ × σ} {next : ρ → Flow σ κ ω ω}
    (hC : C.Honored program) (hpost : ∀ id o {x y}, C.Leads x y → post id o x → post id o y)
    (hready : s.ready = []) (hc : program c = .act g next)
    (h : Upholds C post (within s.nextId (g s.state).2 s.clock (s.nextId + 1) [] s.asleep,
      some (s.nextId, next (g s.state).1))) :
    Upholds C post ((perform program c s).2, none) ∧
      ∀ o, (perform program c s).1 = some (.finished o) →
        post s.nextId o (perform program c s).2.state := by
  have hadd : s.add (program c) = (s.nextId, { s with
      nextId := s.nextId + 1, ready := [.free s.nextId (program c)] }) := by
    rw [add, hready]
    rfl
  have hbegin : Goes program 2
      (within s.nextId s.state s.clock (s.nextId + 1) [.free s.nextId (program c)] s.asleep, none)
      (within s.nextId (g s.state).2 s.clock (s.nextId + 1) [] s.asleep,
        some (s.nextId, next (g s.state).1)) :=
    (goes_main (fun _ => program c) none).trans (hc ▸ goes_actWithin g next)
  obtain ⟨n, hn⟩ : ∃ n, moveLimit = n + 2 := ⟨_, rfl⟩
  obtain ⟨turn, hsteps⟩ := exists_steps_run program (fun _ => False) (fun _ _ => False) n
    (within s.nextId (g s.state).2 s.clock (s.nextId + 1) [] s.asleep,
      some (s.nextId, next (g s.state).1))
  obtain ⟨hend, -⟩ := h.steps hC hpost (fun _ => False.elim) (fun _ _ => False.elim) hsteps
  rw [← hbegin n, ← hn] at hend
  unfold Scheduler.perform
  rw [hadd]
  refine ⟨⟨hend.state, hend.pending, by simp, by simp, hend.fresh⟩, fun o ho => ?_⟩
  obtain ⟨before, after, hlist, -⟩ := List.lookup_eq_some_iff.mp ho
  exact hend.ended _ _ (hlist ▸ List.mem_append_right _ List.mem_cons_self)

end Scheduler

end IlpConnector
