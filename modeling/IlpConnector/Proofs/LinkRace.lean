import IlpConnector.Link.Basic
import Mathlib.Tactic.Common

/-!
# Calls that race on a link

Any number of calls connect and disconnect one link, and the transport answers them in any order and
with any result (`Race.step`).  Between two happenings each call either waits for the transport or
has returned.

The flag of the link is turned before the transport has done anything, so a call may turn it while
another one's operation is still going on.  As long as none does that (`Race.Admits`), opening the
transport never overlaps with another operation, and whenever no call waits the flag tells whether
the last operation has opened the transport; otherwise an overlap is certain
(`Race.agrees_iff_admits`).
-/

namespace IlpConnector

namespace LinkCall

/-- The call turns the flag, and goes on to the transport. -/
def turns {τ η : Type} (l : Link τ η) : LinkCall → Bool
  | connect => !l.connected
  | disconnect => l.connected

/-- Where the call waits first if it turns the flag. -/
def firstWait : LinkCall → LinkWait
  | connect => .connecting
  | disconnect => .disconnecting

end LinkCall

/-- Another call, or the transport's answer to a call that waits for it. -/
inductive RaceEvent where
  | call (call : LinkCall)
  | answer (number : ℕ) (result : Except LinkError Unit)

/-- What has happened on a link, with the number of the call it belongs to. -/
inductive Happening where
  | asked (number : ℕ) (step : TransportStep)
  | answered (number : ℕ) (step : TransportStep) (result : Except LinkError Unit)
  | told (number : ℕ) (event : LinkEvent)

/-- An operation of the transport that is over, and how it ended. -/
def Happening.done? : Happening → Option (TransportStep × Except LinkError Unit)
  | answered _ step result => some (step, result)
  | asked .. | told .. => none

/-- A link, how far each call on it has come, in the order in which they began, and what has
happened so far. -/
structure Race (τ η : Type) where
  link : Link τ η
  calls : List LinkProgress := []
  history : List Happening := []

namespace Race

variable {τ η : Type} {r : Race τ η} {l : Link τ η} {i : ℕ} {w : LinkWait}

/-- What a call asks of the transport when it has come so far. -/
def asks (number : ℕ) : LinkProgress → List Happening
  | .waiting wait => [.asked number wait.step]
  | .returned _ => []

/-- What follows on an event; an answer that no call waits for does not occur. -/
def step (r : Race τ η) : RaceEvent → Race τ η
  | .call c =>
    let (link, progress) := Link.begin c r.link
    ⟨link, r.calls ++ [progress], r.history ++ asks r.calls.length progress⟩
  | .answer i result =>
    match r.calls[i]? with
    | some (.waiting wait) =>
      let (link, events, progress) := Link.resume wait result r.link
      ⟨link, r.calls.set i progress,
        r.history ++ .answered i wait.step result :: (events.map (.told i) ++ asks i progress)⟩
    | _ => r

/-- A race on a link, on which no call has begun yet. -/
def run (l : Link τ η) (es : List RaceEvent) : Race τ η :=
  es.foldl step { link := l }

/-- A call waits for the transport. -/
def Waits (r : Race τ η) (i : ℕ) (w : LinkWait) : Prop := r.calls[i]? = some (.waiting w)

/-- Every call has returned. -/
def AtRest (r : Race τ η) : Prop := ∀ i w, ¬ r.Waits i w

/-- While the transport is opened, it does nothing else. -/
def Exclusive (r : Race τ η) : Prop :=
  ∀ i j w w', r.Waits i w → r.Waits j w' → w.step = .open → i = j

/-- The last operation of the transport that has come to an end, and how. -/
def lastDone (r : Race τ η) : Option (TransportStep × Except LinkError Unit) :=
  (r.history.filterMap Happening.done?).getLast?

/-- The flag tells whether the transport was opened last. -/
def Agrees (r : Race τ η) : Prop :=
  r.link.connected = true ↔ r.lastDone = some (.open, .ok ())

/-- If a call turns the flag, the transport is doing nothing that it would disturb: nothing at all
before it is opened, and it is not being opened before it is closed. -/
def Admits (r : Race τ η) (c : LinkCall) : Prop :=
  c.turns r.link = true → ∀ i w, r.Waits i w → c = .disconnect ∧ w.step ≠ .open

/-! ## What one event does -/

theorem begin_eq (c : LinkCall) (l : Link τ η) :
    Link.begin c l = if c.turns l then ({ l with connected := !l.connected }, .waiting c.firstWait)
      else (l, .returned (.ok ())) := by
  cases c <;> cases h : l.connected <;> simp [Link.begin, LinkCall.turns, LinkCall.firstWait, h]

/-- A call that does not turn the flag changes nothing. -/
theorem waits_call_of_idle {c : LinkCall} (h : c.turns r.link = false) :
    (r.step (.call c)).link = r.link ∧ (r.step (.call c)).history = r.history ∧
      ∀ i w, (r.step (.call c)).Waits i w ↔ r.Waits i w := by
  have hstep : r.step (.call c) = ⟨r.link, r.calls ++ [.returned (.ok ())], r.history ++ []⟩ := by
    simp [step, begin_eq, h, asks]
  rw [hstep, List.append_nil]
  refine ⟨rfl, rfl, fun i w => ?_⟩
  unfold Waits
  dsimp only
  rw [List.getElem?_append]
  split_ifs with hi
  · rfl
  · rw [List.getElem?_eq_none (Nat.le_of_not_lt hi), List.getElem?_singleton]
    split_ifs <;> simp

theorem waits_call_of_turns {c : LinkCall} (h : c.turns r.link = true) :
    (r.step (.call c)).link.connected = !r.link.connected ∧
      (r.step (.call c)).lastDone = r.lastDone ∧
      ∀ i w, (r.step (.call c)).Waits i w ↔
        r.Waits i w ∨ (i = r.calls.length ∧ w = c.firstWait) := by
  have hstep : r.step (.call c) = ⟨{ r.link with connected := !r.link.connected },
      r.calls ++ [.waiting c.firstWait],
      r.history ++ [.asked r.calls.length c.firstWait.step]⟩ := by
    simp [step, begin_eq, h, asks]
  rw [hstep]
  refine ⟨rfl, ?_, fun i w => ?_⟩
  · simp [lastDone, Happening.done?]
  · unfold Waits
    dsimp only
    rw [List.getElem?_append]
    split_ifs with hi
    · have hne : i ≠ r.calls.length := by omega
      simp [hne]
    · rw [List.getElem?_eq_none (Nat.le_of_not_lt hi), List.getElem?_singleton]
      have heq : i - r.calls.length = 0 ↔ i = r.calls.length := by omega
      simp only [heq]
      split_ifs with hlen <;> simp [hlen, eq_comm]

theorem step_answer (result : Except LinkError Unit) (h : r.Waits i w) :
    r.step (.answer i result) = ⟨(Link.resume w result r.link).1,
      r.calls.set i (Link.resume w result r.link).2.2,
      r.history ++ .answered i w.step result :: ((Link.resume w result r.link).2.1.map (.told i)
        ++ asks i (Link.resume w result r.link).2.2)⟩ := by
  unfold Waits at h
  simp only [step, h]

/-- An answer that no call waits for does not occur. -/
theorem step_answer_of_not_waits (result : Except LinkError Unit) (h : ∀ w, ¬ r.Waits i w) :
    r.step (.answer i result) = r := by
  unfold step
  dsimp only
  split
  · rename_i w hi
    exact absurd hi (h w)
  · rfl

/-- An answer to a call that waits for it is done last, and the call goes on as the link says. -/
theorem waits_answer (result : Except LinkError Unit) (h : r.Waits i w) :
    (r.step (.answer i result)).link = (Link.resume w result r.link).1 ∧
      (r.step (.answer i result)).lastDone = some (w.step, result) ∧
      ∀ j w', (r.step (.answer i result)).Waits j w' ↔
        (j ≠ i ∧ r.Waits j w') ∨ (j = i ∧ (Link.resume w result r.link).2.2 = .waiting w') := by
  have hlt : i < r.calls.length := (List.getElem?_eq_some_iff.mp h).1
  rw [step_answer result h]
  refine ⟨rfl, ?_, fun j w' => ?_⟩
  · have htold : ((Link.resume w result r.link).2.1.map (Happening.told i)).filterMap
        Happening.done? = [] := by
      simp [List.filterMap_eq_nil_iff, Happening.done?]
    have hasks : (asks i (Link.resume w result r.link).2.2).filterMap Happening.done? = [] := by
      unfold asks
      split <;> rfl
    simp [lastDone, Happening.done?, htold, hasks]
  · unfold Waits
    dsimp only
    rw [List.getElem?_set]
    by_cases hj : i = j
    · subst hj
      simp [hlt]
    · simp [hj, Ne.symm hj]

/-! ## What a run keeps -/

/-- The state of the flag beside what the transport is doing, in a race without overlaps. -/
structure InStep (r : Race τ η) : Prop where
  exclusive : r.Exclusive
  connecting : ∀ i, r.Waits i .connecting → r.link.connected = true
  disconnecting : ∀ i, r.Waits i .disconnecting → r.link.connected = false
  agrees : r.AtRest → r.Agrees

theorem inStep_fresh (h : l.connected = false) : (run l []).InStep where
  exclusive i j w w' hi := by cases hi
  connecting i hi := by cases hi
  disconnecting i hi := by cases hi
  agrees _ := by
    change l.connected = true ↔ none = _
    simp [h]

theorem InStep.call {c : LinkCall} (h : r.InStep) (ha : r.Admits c) :
    (r.step (.call c)).InStep := by
  by_cases hturns : c.turns r.link = true
  · obtain ⟨hflag, -, hwaits⟩ := waits_call_of_turns hturns
    have hbusy : ¬ (r.step (.call c)).AtRest := fun hrest =>
      hrest _ _ ((hwaits _ _).mpr (Or.inr ⟨rfl, rfl⟩))
    cases c with
    | connect =>
      -- nothing waits, so the call that begins is the only one that does
      have hrest : r.AtRest := fun i w hi => nomatch (ha hturns i w hi).1
      have honly : ∀ i w, (r.step (.call .connect)).Waits i w → i = r.calls.length ∧
          w = .connecting := fun i w hi => ((hwaits i w).mp hi).resolve_left (hrest i w)
      refine ⟨fun i j w w' hi hj _ => ?_, fun i _ => ?_, fun i hi => ?_, fun h => absurd h hbusy⟩
      · rw [(honly i w hi).1, (honly j w' hj).1]
      · rw [hflag]
        exact hturns
      · exact nomatch (honly i _ hi).2
    | disconnect =>
      have hopen : ∀ i w, (r.step (.call .disconnect)).Waits i w → w.step ≠ .open := by
        intro i w hi
        rcases (hwaits i w).mp hi with hi | ⟨-, rfl⟩
        · exact (ha hturns i w hi).2
        · exact nofun
      refine ⟨fun i j w w' hi _ ho => absurd ho (hopen i w hi), fun i hi => ?_, fun i _ => ?_,
        fun h => absurd h hbusy⟩
      · exact absurd rfl (hopen i _ hi)
      · rw [hflag, show r.link.connected = true from hturns]
        rfl
  · obtain ⟨hlink, hhistory, hwaits⟩ := waits_call_of_idle (Bool.eq_false_iff.mpr hturns)
    refine ⟨?_, ?_, ?_, ?_⟩
    · simpa only [Exclusive, hwaits] using h.exclusive
    · simpa only [hlink, hwaits] using h.connecting
    · simpa only [hlink, hwaits] using h.disconnecting
    · simpa only [AtRest, Agrees, lastDone, hlink, hhistory, hwaits] using h.agrees

/-- Closing the transport leaves the flag down, whoever closes it. -/
theorem InStep.closed {result : Except LinkError Unit} (h : r.InStep) (hi : r.Waits i w)
    (hflag : (Link.resume w result r.link).1.connected = false)
    (hreturns : ∀ w', (Link.resume w result r.link).2.2 ≠ .waiting w') (hclose : w.step = .close) :
    (r.step (.answer i result)).InStep := by
  obtain ⟨hlink, hlast, hwaits⟩ := waits_answer result hi
  have hother : ∀ j w', (r.step (.answer i result)).Waits j w' → j ≠ i ∧ r.Waits j w' :=
    fun j w' hj => ((hwaits j w').mp hj).resolve_right fun hp => hreturns w' hp.2
  refine ⟨fun j k w' w'' hj hk ho => ?_, fun j hj => ?_, fun j _ => ?_, fun _ => ?_⟩
  · exact h.exclusive j k w' w'' (hother j w' hj).2 (hother k w'' hk).2 ho
  · obtain ⟨hne, hj⟩ := hother j _ hj
    exact absurd (h.exclusive j i _ w hj hi rfl) hne
  · rw [hlink]
    exact hflag
  · unfold Agrees
    rw [hlink, hlast, hflag, hclose]
    exact iff_of_false Bool.false_ne_true (by simp)

theorem InStep.answer (h : r.InStep) (i : ℕ) (result : Except LinkError Unit) :
    (r.step (.answer i result)).InStep := by
  by_cases hwait : ∃ w, r.Waits i w
  · obtain ⟨w, hi⟩ := hwait
    obtain ⟨hlink, hlast, hwaits⟩ := waits_answer result hi
    -- beside a transport that is being opened nothing else waits
    have halone : w.step = .open → ∀ j w', r.Waits j w' → j = i := fun ho j w' hj =>
      (h.exclusive i j w w' hi hj ho).symm
    cases w with
    | connecting =>
      have hflag := h.connecting i hi
      cases result with
      | ok u =>
        have hrest : ∀ j w', ¬ (r.step (.answer i (.ok u))).Waits j w' := by
          intro j w' hj
          rcases (hwaits j w').mp hj with ⟨hne, hj⟩ | ⟨-, hp⟩
          · exact hne (halone rfl j w' hj)
          · cases hp
        refine ⟨fun j _ w' _ hj => absurd hj (hrest j w'), fun j hj => absurd hj (hrest j _),
          fun j hj => absurd hj (hrest j _), fun _ => ?_⟩
        unfold Agrees
        rw [hlink, hlast]
        exact iff_of_true hflag rfl
      | error e =>
        have honly : ∀ j w', (r.step (.answer i (.error e))).Waits j w' →
            j = i ∧ w' = .tearingDown e := by
          intro j w' hj
          rcases (hwaits j w').mp hj with ⟨hne, hj⟩ | ⟨rfl, hp⟩
          · exact absurd (halone rfl j w' hj) hne
          · exact ⟨rfl, (LinkProgress.waiting.inj hp).symm⟩
        refine ⟨fun j k w' w'' hj hk _ => ?_, fun j hj => ?_, fun j hj => ?_, fun hrest => ?_⟩
        · rw [(honly j w' hj).1, (honly k w'' hk).1]
        · exact nomatch (honly j _ hj).2
        · exact nomatch (honly j _ hj).2
        · exact absurd ((hwaits i _).mpr (Or.inr ⟨rfl, rfl⟩)) (hrest i (.tearingDown e))
    | tearingDown e =>
      refine h.closed hi ?_ (fun w' => ?_) rfl
      · cases result <;> rfl
      · cases result <;> exact nofun
    | disconnecting =>
      have hflag := h.disconnecting i hi
      refine h.closed hi ?_ (fun w' => ?_) rfl
      · cases result <;> exact hflag
      · cases result <;> exact nofun
  · rw [step_answer_of_not_waits result (not_exists.mp hwait)]
    exact h

theorem InStep.step (h : r.InStep) (e : RaceEvent) (ha : ∀ c, e = .call c → r.Admits c) :
    (r.step e).InStep := by
  cases e with
  | call c => exact h.call (ha c rfl)
  | answer i result => exact h.answer i result

/-! ### One event after the other -/

section Events

variable {α β : Type} {step : α → β → α} {a : α} {es : List β} {P : α → Prop} {n m : ℕ}

theorem foldl_take_succ (step : α → β → α) (a : α) (es : List β) (n : ℕ) :
    (es.take (n + 1)).foldl step a
      = es[n]?.elim ((es.take n).foldl step a) (step ((es.take n).foldl step a)) := by
  rw [List.take_add_one, List.foldl_append]
  cases es[n]? <;> rfl

/-- What is so at first, and each event keeps when it comes, is so at all times. -/
theorem foldl_take_keeps (ha : P a)
    (hstep : ∀ n e, es[n]? = some e → P ((es.take n).foldl step a) →
      P (step ((es.take n).foldl step a) e)) (n : ℕ) : P ((es.take n).foldl step a) := by
  induction n with
  | zero => exact ha
  | succ n ih =>
    rw [foldl_take_succ]
    cases he : es[n]? with
    | none => exact ih
    | some e => exact hstep n e he ih

/-- What one event brings about, and every event keeps, is so ever after. -/
theorem foldl_take_since {e : β} (hn : es[n]? = some e)
    (he : P (step ((es.take n).foldl step a) e)) (hstep : ∀ x e, P x → P (step x e))
    (hm : n < m) : P ((es.take m).foldl step a) := by
  induction hm with
  | refl =>
    rw [foldl_take_succ, hn]
    exact he
  | @step m _ ih =>
    rw [foldl_take_succ]
    cases es[m]? with
    | none => exact ih
    | some e => exact hstep _ e ih

end Events

theorem run_take_succ (l : Link τ η) (es : List RaceEvent) (n : ℕ) :
    run l (es.take (n + 1)) = es[n]?.elim (run l (es.take n)) (run l (es.take n)).step :=
  foldl_take_succ step { link := l } es n

theorem inStep_run (hl : l.connected = false) {es : List RaceEvent}
    (h : ∀ n c, es[n]? = some (.call c) → (run l (es.take n)).Admits c) (n : ℕ) :
    (run l (es.take n)).InStep :=
  foldl_take_keeps (P := InStep) (inStep_fresh hl)
    (fun n e he hr => hr.step e fun c hc => h n c (hc ▸ he)) n

/-- A call that turns the flag while the transport does what the call would disturb makes the
transport do both. -/
theorem admits_of_exclusive {c : LinkCall} (h : (r.step (.call c)).Exclusive) : r.Admits c := by
  intro hturns i w hi
  obtain ⟨-, -, hwaits⟩ := waits_call_of_turns hturns
  have hlt : i < r.calls.length := (List.getElem?_eq_some_iff.mp hi).1
  have hold := (hwaits i w).mpr (Or.inl hi)
  have hnew := (hwaits _ c.firstWait).mpr (Or.inr ⟨rfl, rfl⟩)
  cases c with
  | connect => exact absurd (h _ i _ w hnew hold rfl) (Nat.ne_of_gt hlt)
  | disconnect => exact ⟨rfl, fun ho => Nat.ne_of_lt hlt (h i _ w _ hold hnew ho)⟩

/-- On a link that begins disconnected, opening the transport never overlaps with another operation,
and the flag agrees with the transport whenever no call waits, just if each call that turns the flag
finds the transport doing nothing that it would disturb. -/
theorem agrees_iff_admits (hl : l.connected = false) (es : List RaceEvent) :
    (∀ n, (run l (es.take n)).Exclusive ∧
      ((run l (es.take n)).AtRest → (run l (es.take n)).Agrees)) ↔
    ∀ n c, es[n]? = some (.call c) → (run l (es.take n)).Admits c := by
  constructor
  · intro h n c hc
    have hnext := (h (n + 1)).1
    rw [run_take_succ, hc] at hnext
    exact admits_of_exclusive hnext
  · intro h n
    have hinStep := inStep_run hl h n
    exact ⟨hinStep.exclusive, hinStep.agrees⟩

/-- A link whose transport is not looked into. -/
def down : Link Unit Unit := { settings := { type := .loopback }, transport := () }

/-- The transport refuses to open; while it is closed again another call disconnects the link, and
once nothing waits any more the link is connected anew. -/
def calm : List RaceEvent :=
  [.call .connect, .answer 0 (.error (.connectFailed "refused")), .call .disconnect,
    .answer 1 (.ok ()), .answer 0 (.ok ()), .call .connect, .answer 2 (.ok ())]

theorem agrees_iff_admits_calm :
    down.connected = false ∧ (run down calm).link.connected = true ∧ (run down calm).AtRest ∧
      (run down calm).Agrees ∧ ∀ n, (run down (calm.take n)).Exclusive := by
  have hcalls : ∀ n c, calm[n]? = some (.call c) → (run down (calm.take n)).Admits c := by
    intro n c hc hturns i w hi
    match n with
    | 0 => cases hi
    | 2 =>
      obtain rfl := RaceEvent.call.inj (Option.some.inj hc)
      match i with
      | 0 =>
        obtain rfl := LinkProgress.waiting.inj (Option.some.inj hi)
        exact ⟨rfl, nofun⟩
      | _ + 1 => cases hi
    | 5 =>
      match i with
      | 0 => cases hi
      | 1 => cases hi
      | _ + 2 => cases hi
    | 1 => cases hc
    | 3 => cases hc
    | 4 => cases hc
    | 6 => cases hc
    | _ + 7 => cases hc
  have h := (agrees_iff_admits (l := down) rfl calm).mpr hcalls
  have hrest : (run down calm).AtRest := by
    intro i w hi
    match i with
    | 0 => cases hi
    | 1 => cases hi
    | 2 => cases hi
    | _ + 3 => cases hi
  exact ⟨rfl, rfl, hrest, (h 7).2 hrest, fun n => (h n).1⟩

/-- A link is disconnected while its transport is still being opened, which succeeds when the
transport has been closed already: the transport is open in the end, and the flag says otherwise. -/
theorem opened_while_closing :
    ∃ (l : Link Unit Unit) (es : List RaceEvent), l.connected = false ∧ (run l es).AtRest ∧
      (run l es).link.connected = false ∧ (run l es).lastDone = some (.open, .ok ()) ∧
      ¬ (run l es).Agrees ∧ ∃ n, ¬ (run l (es.take n)).Exclusive := by
  refine ⟨down, [.call .connect, .call .disconnect, .answer 1 (.ok ()), .answer 0 (.ok ())], rfl,
    fun i w hi => ?_, rfl, rfl, fun h => ?_, 2, fun h => ?_⟩
  · match i with
    | 0 => cases hi
    | 1 => cases hi
    | _ + 2 => cases hi
  · exact absurd (h.mpr rfl) (by decide)
  · exact absurd (h 0 1 .connecting .disconnecting rfl rfl rfl) (by decide)

end Race

end IlpConnector
