import IlpConnector.Proofs.Contract

/-!
# Tasks from one step to the next

A task that has not got its turn is still there after every step, whatever the others do, and goes
on from where it was (`Scheduler.exists_pending_move`).  No two tasks go by one id
(`Scheduler.Numbered.step`).
-/

namespace IlpConnector

variable {σ κ ω : Type}

/-- A turn goes on where another one did, or where that one went when it heard of an ending. -/
def Turn.Continues (t u : Turn σ κ ω) : Prop :=
  t.id = u.id ∧ ∀ e, ∃ e', t.next e = u.next e'

theorem Turn.continues_self (t : Turn σ κ ω) : t.Continues t := ⟨rfl, fun e => ⟨e, rfl⟩⟩

theorem Turn.continues_hear (id : ℕ) (e : Ending ω) (t : Turn σ κ ω) : (t.hear id e).Continues t := by
  unfold hear
  split
  · exact ⟨rfl, fun _ => ⟨some e, rfl⟩⟩
  · exact t.continues_self

namespace Scheduler

variable {program : κ → Flow σ κ ω ω} {s : Scheduler σ κ ω} {p p' : Point σ κ ω} {t u : Turn σ κ ω}
  {id : ℕ} {e : Ending ω}

/-! ## Tasks that wait for their turns -/

theorem exists_continues_of_finish (h : t ∈ (s.finish id e).pending) :
    ∃ u ∈ s.pending, t.Continues u := by
  rcases pending_finish h with h | ⟨u, hu, rfl⟩
  · exact ⟨t, h, t.continues_self⟩
  · exact ⟨u, hu, u.continues_hear id e⟩

theorem exists_pending_finish (e : Ending ω) (h : u ∈ s.pending) :
    ∃ t ∈ (s.finish id e).pending, t.Continues u := by
  rw [mem_pending] at h
  simp only [mem_pending, finish, List.partition_eq_filter_filter, List.mem_append, List.mem_map,
    List.mem_filter, Function.comp]
  rcases h with h | ⟨w, hw, rfl⟩
  · exact ⟨_, Or.inl ⟨u, Or.inl h, rfl⟩, u.continues_hear id e⟩
  · cases hwoken : w.turn.awaited == some id with
    | true => exact ⟨_, Or.inl ⟨_, Or.inr ⟨w, ⟨hw, hwoken⟩, rfl⟩, rfl⟩, w.turn.continues_hear id e⟩
    | false => exact ⟨_, Or.inr ⟨w, ⟨hw, by simp [hwoken]⟩, rfl⟩, w.turn.continues_self⟩

/-- A task that waits for its turn goes on waiting while another one has its turn. -/
theorem exists_pending_move (program : κ → Flow σ κ ω ω) (f : Flow σ κ ω ω) (h : u ∈ s.pending) :
    ∃ t ∈ (s.move program id f).1.pending, t.Continues u := by
  cases f with
  | done o => exact exists_pending_finish _ h
  | crash m => exact exists_pending_finish _ h
  | act | call | stall => exact ⟨u, h, u.continues_self⟩
  | spawn c next => exact ⟨u, (pending_add _).mpr (Or.inl h), u.continues_self⟩
  | await | sleep => exact ⟨u, (pending_lull _).mpr (Or.inl h), u.continues_self⟩

/-- A task that waits once another one has had its turn did so before, or has been begun by that
one, or is that one. -/
theorem mem_pending_move {f : Flow σ κ ω ω} (h : t ∈ (s.move program id f).1.pending) :
    (∃ u ∈ s.pending, t.Continues u) ∨
      (∃ c next, f = .spawn c next ∧ t = .free s.nextId (program c)) ∨
      (∃ u limit next, f = .await u limit next ∧ t = ⟨id, some u, next⟩) ∨
      ∃ millis next, f = .sleep millis next ∧ t = .free id (next ()) := by
  cases f with
  | done o => exact Or.inl (exists_continues_of_finish h)
  | crash m => exact Or.inl (exists_continues_of_finish h)
  | act | call | stall => exact Or.inl ⟨t, h, t.continues_self⟩
  | spawn c next =>
    rcases (pending_add _).mp h with h | rfl
    · exact Or.inl ⟨t, h, t.continues_self⟩
    · exact Or.inr (Or.inl ⟨c, next, rfl, rfl⟩)
  | await u limit next =>
    rcases (pending_lull _).mp h with h | rfl
    · exact Or.inl ⟨t, h, t.continues_self⟩
    · exact Or.inr (Or.inr (Or.inl ⟨u, limit, next, rfl, rfl⟩))
  | sleep millis next =>
    rcases (pending_lull _).mp h with h | rfl
    · exact Or.inl ⟨t, h, t.continues_self⟩
    · exact Or.inr (Or.inr (Or.inr ⟨millis, next, rfl, rfl⟩))

/-! ## The ids of tasks -/

def ids (s : Scheduler σ κ ω) : List ℕ := s.pending.map Turn.id

/-- The ids of all tasks, of the one that has its turn as well. -/
def idsAt (p : Point σ κ ω) : List ℕ := (p.2.map Prod.fst).toList ++ p.1.ids

/-- The tasks have different ids, which have all been given out. -/
structure Numbered (p : Point σ κ ω) : Prop where
  nodup : (idsAt p).Nodup
  lt : ∀ id ∈ idsAt p, id < p.1.nextId

theorem ids_finish (s : Scheduler σ κ ω) (id : ℕ) (e : Ending ω) :
    (s.finish id e).ids.Perm s.ids := by
  have hhear : ∀ t : Turn σ κ ω, (t.hear id e).id = t.id := fun t => (t.continues_hear id e).1
  simp only [ids, pending, finish, List.partition_eq_filter_filter, List.map_append, List.map_map,
    Function.comp_def, hhear, List.append_assoc]
  refine List.Perm.append_left _ ?_
  rw [← List.map_append]
  exact (List.filter_append_perm _ s.asleep).map _

theorem ids_advanceTo (s : Scheduler σ κ ω) (time : ℕ) : (s.advanceTo time).ids.Perm s.ids := by
  simp only [ids, pending, advanceTo, List.partition_eq_filter_filter, List.map_append,
    List.map_map, Function.comp_def, List.append_assoc]
  refine List.Perm.append_left _ ?_
  rw [← List.map_append]
  exact (List.filter_append_perm _ s.asleep).map _

theorem ids_lull (s : Scheduler σ κ ω) (w : Sleeper σ κ ω) :
    (s.lull w).ids.Perm (w.turn.id :: s.ids) := by
  simp only [ids, pending, lull, List.map_append, List.map_cons, List.map_nil, ← List.append_assoc]
  exact List.perm_append_singleton _ _

theorem ids_add (s : Scheduler σ κ ω) (f : Flow σ κ ω ω) :
    (s.add f).2.ids.Perm (s.nextId :: s.ids) := by
  simp only [ids, pending, add, List.map_append, List.map_cons, List.map_nil, List.append_assoc]
  exact List.perm_middle

theorem Numbered.of_perm (h : Numbered p) (hperm : (idsAt p').Perm (idsAt p))
    (hnext : p'.1.nextId = p.1.nextId) : Numbered p' where
  nodup := hperm.nodup_iff.mpr h.nodup
  lt id hid := hnext ▸ h.lt id (hperm.mem_iff.mp hid)

/-- The tasks without the one that has its turn. -/
theorem Numbered.others {turn : Option (ℕ × Flow σ κ ω ω)} (h : Numbered (s, turn)) :
    Numbered (s, none) where
  nodup := h.nodup.sublist (List.sublist_append_right _ _)
  lt id hid := h.lt id (List.mem_append_right _ hid)

theorem Numbered.add {turn : Option (ℕ × Flow σ κ ω ω)} (h : Numbered (s, turn))
    (f : Flow σ κ ω ω) : Numbered ((s.add f).2, turn) := by
  have hperm : (idsAt ((s.add f).2, turn)).Perm (s.nextId :: idsAt (s, turn)) :=
    ((ids_add s f).append_left _).trans List.perm_middle
  refine ⟨hperm.nodup_iff.mpr (List.nodup_cons.mpr ⟨fun hmem => ?_, h.nodup⟩), fun id hid => ?_⟩
  · exact Nat.lt_irrefl _ (h.lt s.nextId hmem)
  · rcases List.mem_cons.mp (hperm.mem_iff.mp hid) with rfl | hid
    · exact Nat.lt_succ_self _
    · exact Nat.lt_succ_of_lt (h.lt id hid)

theorem Numbered.step {May : κ → Prop} {Outside : σ → σ → Prop} (h : Numbered p)
    (hstep : Step program May Outside p p') : Numbered p' := by
  cases hstep with
  | start hc => exact h.add _
  | outside hx => exact ⟨h.nodup, h.lt⟩
  | @pick s t before after hready =>
    refine h.of_perm ?_ rfl
    simp only [idsAt, ids, pending, hready, List.map_append, List.map_cons, List.append_assoc,
      List.cons_append, Option.map_some, Option.map_none, Option.toList_some, Option.toList_none,
      List.nil_append]
    exact List.perm_middle.symm
  | @move s id f =>
    cases f with
    | done o => exact h.others.of_perm (ids_finish s id _) rfl
    | crash m => exact h.others.of_perm (ids_finish s id _) rfl
    | act | call => exact ⟨h.nodup, h.lt⟩
    | spawn c next => exact (h.add (program c)).of_perm (.refl _) rfl
    | await t limit next => exact h.of_perm (ids_lull s _) rfl
    | sleep millis next => exact h.of_perm (ids_lull s _) rfl
    | stall => exact h.others
  | pass time => exact h.of_perm (ids_advanceTo _ time) rfl

end Scheduler

end IlpConnector
