import IlpConnector.Proofs.LinkRace

/-!
# What each call asks of the transport

However the calls on a link race, and whatever the transport answers, each call takes one of few
courses (`CallCourse`).  A call that does not turn the flag does nothing at all.  One that connects
asks the transport once to open; if that fails it asks it once to close and tells the error, and if
not it tells once that the link is connected.

The flag goes down only when a call that disconnects turns it, or when one that failed to connect
rolls it back, and so one of these comes between any two calls that connect
(`Race.turns_of_run`).
-/

namespace IlpConnector

namespace Happening

/-- The number of the call that something belongs to. -/
def number : Happening → ℕ
  | asked i _ | answered i _ _ | told i _ => i

/-- The transport is asked to open, or to close. -/
def isAsked (step : TransportStep) : Happening → Bool
  | asked _ s => s = step
  | answered .. | told .. => false

def event? : Happening → Option LinkEvent
  | told _ event => some event
  | asked .. | answered .. => none

end Happening

namespace Listeners

/-- Who hears events one after the other, when listeners may change the listeners as they hear
one. -/
def hearing (react : String → Listeners → Listeners) :
    Listeners → List LinkEvent → List (String × LinkEvent)
  | _, [] => []
  | ls, e :: es => (notify react ls).1.map (·, e) ++ hearing react (notify react ls).2 es

end Listeners

/-- What has happened to call `i`, of the given kind, on a link with this id, when it has come so
far.  The flag tells whether the call has turned the link's flag. -/
inductive CallCourse (id : Option LinkId) (i : ℕ) :
    LinkCall → Bool → LinkProgress → List Happening → Prop
  | idle (c : LinkCall) : CallCourse id i c false (.returned (.ok ())) []
  | opening : CallCourse id i .connect true (.waiting .connecting) [.asked i .open]
  | opened : CallCourse id i .connect true (.returned (.ok ()))
      [.asked i .open, .answered i .open (.ok ()), .told i (.connected id)]
  | refused (e : LinkError) : CallCourse id i .connect true (.waiting (.tearingDown e))
      [.asked i .open, .answered i .open (.error e), .asked i .close]
  | rolledBack (e : LinkError) (result : Except LinkError Unit) :
      CallCourse id i .connect true (.returned (.error e))
        [.asked i .open, .answered i .open (.error e), .asked i .close, .answered i .close result,
          .told i (.error id e.message)]
  | closing : CallCourse id i .disconnect true (.waiting .disconnecting) [.asked i .close]
  | closed : CallCourse id i .disconnect true (.returned (.ok ()))
      [.asked i .close, .answered i .close (.ok ()), .told i (.disconnected id)]
  | unclosed (e : LinkError) : CallCourse id i .disconnect true (.returned (.error e))
      [.asked i .close, .answered i .close (.error e)]

namespace Race

variable {τ η : Type} {r : Race τ η} {l : Link τ η} {es : List RaceEvent} {i n m : ℕ}
  {c : LinkCall} {w : LinkWait} {won : Bool}

/-! ## One call -/

/-- What has happened to one call. -/
def historyOf (r : Race τ η) (i : ℕ) : List Happening := r.history.filter (·.number = i)

/-- A call takes one of the courses that it can take. -/
def Proceeds (r : Race τ η) (i : ℕ) (c : LinkCall) (won : Bool) : Prop :=
  ∃ p, r.calls[i]? = some p ∧ CallCourse r.link.id i c won p (r.historyOf i)

theorem number_of_mem_asks {p : LinkProgress} {h : Happening} (hmem : h ∈ asks i p) :
    h.number = i := by
  unfold asks at hmem
  split at hmem
  · rw [List.mem_singleton.mp hmem]
    rfl
  · cases hmem

theorem length_calls_step (r : Race τ η) (e : RaceEvent) :
    (r.step e).calls.length = r.calls.length + match e with
      | .call _ => 1
      | .answer .. => 0 := by
  cases e with
  | call c => exact List.length_append
  | answer i result =>
    by_cases hwait : ∃ w, r.Waits i w
    · obtain ⟨w, hw⟩ := hwait
      rw [step_answer result hw]
      exact List.length_set
    · rw [step_answer_of_not_waits result (not_exists.mp hwait)]
      rfl

/-- What follows on an event belongs to one call: to a new one, or to the one that is answered. -/
theorem exists_history_step (r : Race τ η) (e : RaceEvent) :
    ∃ new, (r.step e).history = r.history ++ new ∧
      ∀ h ∈ new, h.number < (r.step e).calls.length ∧ h.number = match e with
        | .call _ => r.calls.length
        | .answer i _ => i := by
  rw [length_calls_step]
  cases e with
  | call c =>
    refine ⟨_, rfl, fun h hmem => ?_⟩
    rw [number_of_mem_asks hmem]
    exact ⟨Nat.lt_succ_self _, rfl⟩
  | answer i result =>
    by_cases hwait : ∃ w, r.Waits i w
    · obtain ⟨w, hw⟩ := hwait
      have hi : i < r.calls.length := (List.getElem?_eq_some_iff.mp hw).1
      rw [step_answer result hw]
      refine ⟨_, rfl, fun h hmem => ?_⟩
      have hnumber : h.number = i := by
        rw [List.mem_cons, List.mem_append, List.mem_map] at hmem
        rcases hmem with rfl | ⟨event, -, rfl⟩ | hmem
        · rfl
        · rfl
        · exact number_of_mem_asks hmem
      rw [hnumber]
      exact ⟨hi, rfl⟩
    · rw [step_answer_of_not_waits result (not_exists.mp hwait)]
      exact ⟨[], (List.append_nil _).symm, nofun⟩

theorem filter_number {hs : List Happening} {j : ℕ} (h : ∀ x ∈ hs, x.number = j) :
    hs.filter (·.number = i) = if j = i then hs else [] := by
  split_ifs with hj
  · exact List.filter_eq_self.mpr fun x hx => decide_eq_true ((h x hx).trans hj)
  · exact List.filter_eq_nil_iff.mpr fun x hx hi => hj ((h x hx).symm.trans (of_decide_eq_true hi))

/-- A link changes in nothing but its flag. -/
theorem link_step (r : Race τ η) (e : RaceEvent) :
    (r.step e).link = { r.link with connected := (r.step e).link.connected } := by
  cases e with
  | call c =>
    change (Link.begin c r.link).1 = { r.link with connected := (Link.begin c r.link).1.connected }
    rw [begin_eq]
    split_ifs <;> rfl
  | answer i result =>
    by_cases hwait : ∃ w, r.Waits i w
    · obtain ⟨w, hw⟩ := hwait
      rw [step_answer result hw]
      cases w <;> cases result <;> rfl
    · rw [step_answer_of_not_waits result (not_exists.mp hwait)]

/-- Everything that has happened belongs to a call that has begun. -/
def Numbered (r : Race τ η) : Prop := ∀ h ∈ r.history, h.number < r.calls.length

theorem Numbered.step (h : r.Numbered) (e : RaceEvent) : (r.step e).Numbered := by
  obtain ⟨new, hhistory, hnew⟩ := r.exists_history_step e
  intro x hx
  rw [hhistory, List.mem_append] at hx
  rcases hx with hx | hx
  · rw [length_calls_step]
    exact Nat.lt_add_right _ (h x hx)
  · exact (hnew x hx).1

theorem callCourse_begin (c : LinkCall) (l : Link τ η) (i : ℕ) :
    CallCourse l.id i c (c.turns l) (Link.begin c l).2 (asks i (Link.begin c l).2) := by
  rw [begin_eq]
  cases hturns : c.turns l with
  | false => exact .idle c
  | true =>
    cases c with
    | connect => exact .opening
    | disconnect => exact .closing

/-- A call that waits goes on along its course, whatever it is answered. -/
theorem CallCourse.resume {l : Link τ η} {hs : List Happening}
    (h : CallCourse l.id i c won (.waiting w) hs) (result : Except LinkError Unit) :
    CallCourse l.id i c won (Link.resume w result l).2.2
      (hs ++ .answered i w.step result :: ((Link.resume w result l).2.1.map (.told i)
        ++ asks i (Link.resume w result l).2.2)) := by
  cases h with
  | opening =>
    cases result with
    | ok u => exact .opened
    | error e => exact .refused e
  | refused e => cases result <;> exact .rolledBack e _
  | closing =>
    cases result with
    | ok u => exact .closed
    | error e => exact .unclosed e

/-- A new call sets out on a course. -/
theorem proceeds_call (h : r.Numbered) (c : LinkCall) :
    (r.step (.call c)).Proceeds r.calls.length c (c.turns r.link) := by
  refine ⟨(Link.begin c r.link).2, ?_, ?_⟩
  · rw [Race.step, List.getElem?_append_right (Nat.le_refl _), Nat.sub_self]
    rfl
  · have hold : r.history.filter (·.number = r.calls.length) = [] :=
      List.filter_eq_nil_iff.mpr fun x hx hi => Nat.ne_of_lt (h x hx) (of_decide_eq_true hi)
    rw [link_step, historyOf, Race.step, List.filter_append, hold, List.nil_append,
      filter_number fun x => number_of_mem_asks, if_pos rfl]
    exact callCourse_begin c r.link _

/-- A call stays on its course, whatever happens. -/
theorem Proceeds.step (h : r.Proceeds i c won) (e : RaceEvent) : (r.step e).Proceeds i c won := by
  obtain ⟨p, hp, hcourse⟩ := h
  have hi : i < r.calls.length := (List.getElem?_eq_some_iff.mp hp).1
  obtain ⟨new, hhistory, hnew⟩ := r.exists_history_step e
  have hfilter := filter_number (i := i) fun x hx => (hnew x hx).2
  cases e with
  | call c' =>
    refine ⟨p, ?_, ?_⟩
    · rw [Race.step, List.getElem?_append_left hi]
      exact hp
    · rw [link_step, historyOf, hhistory, List.filter_append, hfilter,
        if_neg (Nat.ne_of_gt hi), List.append_nil]
      exact hcourse
  | answer j result =>
    by_cases hwait : ∃ w, r.Waits j w
    · obtain ⟨w, hw⟩ := hwait
      by_cases hj : j = i
      · subst hj
        obtain rfl := Option.some.inj (hp.symm.trans hw)
        have hresume := CallCourse.resume hcourse result
        refine ⟨(Link.resume w result r.link).2.2, ?_, ?_⟩
        · rw [step_answer result hw, List.getElem?_set_self hi]
        · rw [link_step, historyOf, hhistory, List.filter_append, hfilter, if_pos rfl]
          rw [step_answer result hw, List.append_cancel_left_eq] at hhistory
          rw [← hhistory]
          exact hresume
      · refine ⟨p, ?_, ?_⟩
        · rw [step_answer result hw, List.getElem?_set_ne hj]
          exact hp
        · rw [link_step, historyOf, hhistory, List.filter_append, hfilter, if_neg hj,
            List.append_nil]
          exact hcourse
    · rw [step_answer_of_not_waits result (not_exists.mp hwait)]
      exact ⟨p, hp, hcourse⟩

/-! ## Whole runs -/

/-- What a fresh race has and every event keeps, every race has. -/
theorem run_keeps {P : Race τ η → Prop} (hl : P { link := l })
    (hstep : ∀ r e, P r → P (r.step e)) (es : List RaceEvent) : P (run l es) :=
  List.foldlRecOn es step hl fun r hr e _ => hstep r e hr

theorem numbered_run (l : Link τ η) (es : List RaceEvent) : (run l es).Numbered :=
  run_keeps (P := Numbered) nofun (fun _ e h => h.step e) es

theorem link_run (l : Link τ η) (es : List RaceEvent) :
    (run l es).link = { l with connected := (run l es).link.connected } :=
  run_keeps (P := fun r => r.link = { l with connected := r.link.connected }) rfl
    (fun r e h => (link_step r e).trans (by rw [h])) es

/-- The call that begins with the event `n` takes one of its courses in every run that has come so
far. -/
theorem proceeds_run (hn : es[n]? = some (.call c)) (hm : n < m) : (run l (es.take m)).Proceeds
    (run l (es.take n)).calls.length c (c.turns (run l (es.take n)).link) :=
  foldl_take_since (P := fun r : Race τ η => r.Proceeds _ c _) hn
    (proceeds_call (numbered_run _ _) c) (fun _ e h => h.step e) hm

/-- Every call has begun with some event. -/
theorem exists_call_of_lt (hi : i < (run l (es.take m)).calls.length) :
    ∃ n c, n < m ∧ es[n]? = some (.call c) ∧ (run l (es.take n)).calls.length = i := by
  induction m with
  | zero => cases hi
  | succ m ih =>
    rw [run_take_succ] at hi
    have hold : i < (run l (es.take m)).calls.length →
        ∃ n c, n < m + 1 ∧ es[n]? = some (.call c) ∧ (run l (es.take n)).calls.length = i :=
      fun hi => by
        obtain ⟨n, c, hn, h⟩ := ih hi
        exact ⟨n, c, Nat.lt_succ_of_lt hn, h⟩
    cases he : es[m]? with
    | none =>
      rw [he] at hi
      exact hold hi
    | some e =>
      rw [he] at hi
      change i < ((run l (es.take m)).step e).calls.length at hi
      rw [length_calls_step] at hi
      cases e with
      | call c =>
        rcases Nat.lt_succ_iff_lt_or_eq.mp hi with hi | hi
        · exact hold hi
        · exact ⟨m, c, Nat.lt_succ_self m, he, hi.symm⟩
      | answer => exact hold hi

/-! ## The flag -/

/-- The event `n` is a call that turns the flag. -/
def Turns (l : Link τ η) (es : List RaceEvent) (n : ℕ) (c : LinkCall) : Prop :=
  es[n]? = some (.call c) ∧ c.turns (run l (es.take n)).link = true

/-- The event `n` ends a call that failed to connect, and turns the flag back. -/
def RollsBack (l : Link τ η) (es : List RaceEvent) (n : ℕ) : Prop :=
  ∃ i result e, es[n]? = some (.answer i result) ∧ (run l (es.take n)).Waits i (.tearingDown e)

/-- The flag stays up, but for a call that disconnects and for a call that rolls it back. -/
theorem connected_step (h : r.link.connected = true) {e : RaceEvent} (hcall : e ≠ .call .disconnect)
    (hanswer : ∀ i result cause, e = .answer i result → ¬ r.Waits i (.tearingDown cause)) :
    (r.step e).link.connected = true := by
  cases e with
  | call c =>
    cases c with
    | connect =>
      have hidle : LinkCall.connect.turns r.link = false := by
        rw [LinkCall.turns, h]
        rfl
      rw [(waits_call_of_idle hidle).1]
      exact h
    | disconnect => exact absurd rfl hcall
  | answer i result =>
    by_cases hwait : ∃ w, r.Waits i w
    · obtain ⟨w, hw⟩ := hwait
      rw [step_answer result hw]
      cases w with
      | connecting => cases result <;> exact h
      | tearingDown cause => exact absurd hw (hanswer i result cause rfl)
      | disconnecting => cases result <;> exact h
    · rw [step_answer_of_not_waits result (not_exists.mp hwait)]
      exact h

/-- Between two calls that connect, the flag has gone down. -/
theorem exists_between (hnm : n < m) (hn : Turns l es n .connect) (hm : Turns l es m .connect) :
    ∃ k, n < k ∧ k < m ∧ (Turns l es k .disconnect ∨ RollsBack l es k) := by
  by_contra hnone
  have hup : ∀ k, n < k → k ≤ m → (run l (es.take k)).link.connected = true := by
    intro k hk
    induction hk with
    | refl =>
      intro _
      rw [run_take_succ, hn.1]
      have hturns := hn.2
      refine (waits_call_of_turns hturns).1.trans ?_
      exact hturns
    | @step k hk ih =>
      intro hle
      have hk' := ih (Nat.le_of_succ_le hle)
      rw [run_take_succ]
      cases he : es[k]? with
      | none => exact hk'
      | some e =>
        refine connected_step hk' ?_ ?_
        · rintro rfl
          exact hnone ⟨k, hk, hle, Or.inl ⟨he, hk'⟩⟩
        · rintro i result cause rfl hw
          exact hnone ⟨k, hk, hle, Or.inr ⟨i, result, cause, he, hw⟩⟩
  have hdown := hm.2
  rw [LinkCall.turns, hup m hnm (Nat.le_refl m)] at hdown
  cases hdown

/-! ## Calls that only connect -/

/-- What becomes of calls that all connect, over a transport that opens: the first one opens it, and
all others return at once. -/
inductive Joint (l : Link τ η) : Race τ η → Prop
  | fresh : Joint l { link := l }
  | opening (others : ℕ) : Joint l ⟨{ l with connected := true },
      .waiting .connecting :: List.replicate others (.returned (.ok ())), [.asked 0 .open]⟩
  | opened (others : ℕ) : Joint l ⟨{ l with connected := true },
      .returned (.ok ()) :: List.replicate others (.returned (.ok ())),
      [.asked 0 .open, .answered 0 .open (.ok ()), .told 0 (.connected l.id)]⟩

theorem Joint.connect (h : Joint l r) (hl : l.connected = false) :
    Joint l (r.step (.call .connect)) := by
  have hlater : ∀ (p : LinkProgress) (others : ℕ) (history : List Happening),
      step ⟨{ l with connected := true }, p :: List.replicate others (.returned (.ok ())), history⟩
        (.call .connect)
      = ⟨{ l with connected := true }, p :: List.replicate (others + 1) (.returned (.ok ())),
          history⟩ := by
    intro p others history
    simp [Race.step, Link.begin, asks, List.replicate_succ']
  cases h with
  | fresh =>
    have hfirst : step { link := l } (.call .connect) = ⟨{ l with connected := true },
        .waiting .connecting :: List.replicate 0 (.returned (.ok ())), [.asked 0 .open]⟩ := by
      simp [Race.step, Link.begin, asks, hl, LinkWait.step]
    rw [hfirst]
    exact .opening 0
  | opening others =>
    rw [hlater]
    exact .opening (others + 1)
  | opened others =>
    rw [hlater]
    exact .opened (others + 1)

/-- Only the first call ever waits. -/
theorem Joint.waits (h : Joint l r) (hw : r.Waits i w) : i = 0 ∧ w = .connecting := by
  have hreturned : ∀ others j : ℕ,
      (List.replicate others (LinkProgress.returned (.ok ())))[j]? ≠ some (.waiting w) := by
    intro others j hw
    cases (List.mem_replicate.mp (List.mem_of_getElem? hw)).2
  cases h with
  | fresh => cases hw
  | opening others =>
    cases i with
    | zero => exact ⟨rfl, (LinkProgress.waiting.inj (Option.some.inj hw)).symm⟩
    | succ i => exact absurd hw (hreturned others i)
  | opened others => exact absurd hw (hreturned (others + 1) i)

theorem Joint.answer (h : Joint l r) (i : ℕ) : Joint l (r.step (.answer i (.ok ()))) := by
  by_cases hwait : ∃ w, r.Waits i w
  · obtain ⟨w, hw⟩ := hwait
    obtain ⟨rfl, rfl⟩ := h.waits hw
    cases h with
    | fresh => cases hw
    | opening others => exact .opened others
    | opened others => cases hw
  · rw [step_answer_of_not_waits _ (not_exists.mp hwait)]
    exact h

theorem joint_run (hl : l.connected = false)
    (hes : ∀ e ∈ es, e = .call .connect ∨ ∃ i, e = .answer i (.ok ())) : Joint l (run l es) :=
  List.foldlRecOn es step .fresh fun r hr e he => by
    obtain rfl | ⟨i, rfl⟩ := hes e he
    · exact hr.connect hl
    · exact hr.answer i

/-! ## The events -/

/-- What the listeners of the link have been told by one call. -/
def eventsOf (r : Race τ η) (i : ℕ) : List LinkEvent := (r.historyOf i).filterMap Happening.event?

/-- What the listeners of the link have been told. -/
def events (r : Race τ η) : List LinkEvent := r.history.filterMap Happening.event?

/-- How often a call has asked the transport for something. -/
def asksOf (r : Race τ η) (i : ℕ) (step : TransportStep) : ℕ :=
  (r.historyOf i).countP (Happening.isAsked step)

theorem mem_historyOf {h : Happening} : h ∈ r.historyOf i ↔ h ∈ r.history ∧ h.number = i := by
  rw [historyOf, List.mem_filter, decide_eq_true_eq]

/-- How often a call asks the transport to open: once if it connects and turns the flag. -/
def opensOf : LinkCall → (won : Bool) → ℕ
  | .connect, true => 1
  | _, _ => 0

theorem Proceeds.asksOf_open (h : r.Proceeds i c won) : r.asksOf i .open = opensOf c won := by
  obtain ⟨p, -, hcourse⟩ := h
  unfold asksOf
  generalize r.historyOf i = hs at hcourse
  cases hcourse <;> simp [Happening.isAsked, opensOf]

theorem Proceeds.of_idle (h : r.Proceeds i c false) :
    r.calls[i]? = some (.returned (.ok ())) ∧ r.historyOf i = [] := by
  obtain ⟨p, hp, hcourse⟩ := h
  generalize r.historyOf i = hs at hcourse
  cases hcourse
  exact ⟨hp, rfl⟩

/-- A call that has failed to open the transport closes it once; when that is over it has told the
error, once, and returns it. -/
theorem Proceeds.of_refused (h : r.Proceeds i c won) {e : LinkError}
    (hmem : .answered i .open (.error e) ∈ r.history) : r.asksOf i .close = 1 ∧
      (r.Waits i (.tearingDown e) ∧ r.eventsOf i = [] ∨
        r.calls[i]? = some (.returned (.error e)) ∧
          r.eventsOf i = [.error r.link.id e.message]) := by
  obtain ⟨p, hp, hcourse⟩ := h
  have hmem' : .answered i .open (.error e) ∈ r.historyOf i := mem_historyOf.mpr ⟨hmem, rfl⟩
  unfold asksOf eventsOf
  generalize r.historyOf i = hs at hcourse hmem'
  cases hcourse <;> simp at hmem'
  · subst hmem'
    exact ⟨rfl, Or.inl ⟨hp, rfl⟩⟩
  · subst hmem'
    exact ⟨rfl, Or.inr ⟨hp, rfl⟩⟩

/-- A call that has opened the transport has told so, once, and has returned. -/
theorem Proceeds.of_opened (h : r.Proceeds i c won) (hmem : .answered i .open (.ok ()) ∈ r.history) :
    r.asksOf i .close = 0 ∧ r.calls[i]? = some (.returned (.ok ())) ∧
      r.eventsOf i = [.connected r.link.id] := by
  obtain ⟨p, hp, hcourse⟩ := h
  have hmem' : .answered i .open (.ok ()) ∈ r.historyOf i := mem_historyOf.mpr ⟨hmem, rfl⟩
  unfold asksOf eventsOf
  generalize r.historyOf i = hs at hcourse hmem'
  cases hcourse <;> simp at hmem'
  exact ⟨rfl, hp, rfl⟩

theorem proceeds_of_call (l : Link τ η) (hn : es[n]? = some (.call c)) : (run l es).Proceeds
    (run l (es.take n)).calls.length c (c.turns (run l (es.take n)).link) := by
  have hlt : n < es.length := (List.getElem?_eq_some_iff.mp hn).1
  have hproceeds := proceeds_run (l := l) hn hlt
  rwa [List.take_length] at hproceeds

theorem exists_proceeds_of_mem {h : Happening} (hmem : h ∈ (run l es).history) :
    ∃ n c, es[n]? = some (.call c) ∧ h.number = (run l (es.take n)).calls.length := by
  have hi := numbered_run l es h hmem
  rw [← List.take_length (l := es)] at hi
  obtain ⟨n, c, -, hn, hnumber⟩ := exists_call_of_lt hi
  exact ⟨n, c, hn, hnumber.symm⟩

/-- Whatever races on a link, and however the transport answers: each call that connects and turns
the flag asks the transport once to open, and no other call does.  A call that does not turn the
flag returns at once, and nothing happens.  Between two calls that connect, one that disconnects
turns the flag, or one that failed to connect rolls it back.  A call that fails to open the
transport asks it once to close and tells its error once, and one that opens it tells once that the
link is connected.  If all calls connect and the transport opens, it is opened once, each listener
hears once that the link is connected, and so it is. -/
theorem turns_of_run (l : Link τ η) (es : List RaceEvent) :
    let r := run l es
    (∀ n c, es[n]? = some (.call c) →
      let before := run l (es.take n)
      let i := before.calls.length
      let won := c.turns before.link
      r.Proceeds i c won ∧ r.asksOf i .open = opensOf c won ∧
        (won = false → r.historyOf i = [] ∧ r.calls[i]? = some (.returned (.ok ())) ∧
          run l (es.take (n + 1))
            = { before with calls := before.calls ++ [.returned (.ok ())] })) ∧
    (∀ h ∈ r.history, ∃ n c, es[n]? = some (.call c) ∧
      h.number = (run l (es.take n)).calls.length) ∧
    (∀ n m, n < m → Turns l es n .connect → Turns l es m .connect →
      ∃ k, n < k ∧ k < m ∧ (Turns l es k .disconnect ∨ RollsBack l es k)) ∧
    (∀ i e, .answered i .open (.error e) ∈ r.history → r.asksOf i .close = 1 ∧
      (r.Waits i (.tearingDown e) ∧ r.eventsOf i = [] ∨
        r.calls[i]? = some (.returned (.error e)) ∧ r.eventsOf i = [.error l.id e.message])) ∧
    (∀ i, .answered i .open (.ok ()) ∈ r.history → r.asksOf i .close = 0 ∧
      r.calls[i]? = some (.returned (.ok ())) ∧ r.eventsOf i = [.connected l.id]) ∧
    (l.connected = false → (∀ e ∈ es, e = .call .connect ∨ ∃ i, e = .answer i (.ok ())) →
      .call .connect ∈ es → r.AtRest →
      r.history = [.asked 0 .open, .answered 0 .open (.ok ()), .told 0 (.connected l.id)] ∧
        r.link = { l with connected := true } ∧ (∀ p ∈ r.calls, p = .returned (.ok ())) ∧
        ∀ react, l.listeners.hearing react r.events = l.listeners.map (·, .connected l.id)) := by
  intro r
  have hid : (run l es).link.id = l.id := by rw [link_run]
  refine ⟨fun n c hn => ?_, fun h hmem => exists_proceeds_of_mem hmem,
    fun n m hnm hn hm => exists_between hnm hn hm, fun i e hmem => ?_, fun i hmem => ?_,
    fun hl hes hsome hrest => ?_⟩
  · have hproceeds := proceeds_of_call l hn
    refine ⟨hproceeds, hproceeds.asksOf_open, fun hwon => ?_⟩
    rw [hwon] at hproceeds
    obtain ⟨hreturned, hnothing⟩ := hproceeds.of_idle
    refine ⟨hnothing, hreturned, ?_⟩
    rw [run_take_succ, hn]
    simp [step, begin_eq, hwon, asks]
  · obtain ⟨n, c, hn, rfl⟩ := exists_proceeds_of_mem hmem
    rw [← hid]
    exact (proceeds_of_call l hn).of_refused hmem
  · obtain ⟨n, c, hn, rfl⟩ := exists_proceeds_of_mem hmem
    rw [← hid]
    exact (proceeds_of_call l hn).of_opened hmem
  · have hcalls : r.calls ≠ [] := by
      obtain ⟨n, hn⟩ := List.getElem?_of_mem hsome
      obtain ⟨p, hp, -⟩ := proceeds_of_call l hn
      exact List.ne_nil_of_mem (List.mem_of_getElem? hp)
    have hjoint : Joint l r := joint_run hl hes
    generalize r = r at hcalls hjoint hrest
    cases hjoint with
    | fresh => exact absurd rfl hcalls
    | opening others => exact absurd rfl (hrest 0 .connecting)
    | opened others =>
      refine ⟨rfl, rfl, fun p hp => ?_, fun react => ?_⟩
      · exact (List.mem_replicate.mp (show p ∈ List.replicate (others + 1) _ from hp)).2
      · exact List.append_nil _

/-- A link that two listen to, the second one twice. -/
def followed : Link Unit Unit := { down with listeners := ["first", "second", "second"] }

/-- Two calls connect the link at once. -/
def together : List RaceEvent := [.call .connect, .call .connect, .answer 0 (.ok ())]

theorem turns_of_run_calm :
    (∃ k, 0 < k ∧ k < 5 ∧ (Turns down calm k .disconnect ∨ RollsBack down calm k)) ∧
      (run down calm).asksOf 0 .close = 1 ∧
      (run down calm).eventsOf 0 = [.error none (LinkError.connectFailed "refused").message] ∧
      (run down calm).eventsOf 2 = [.connected none] ∧
      (run followed together).history
        = [.asked 0 .open, .answered 0 .open (.ok ()), .told 0 (.connected none)] ∧
      (run followed together).link.connected = true ∧
      followed.listeners.hearing (fun _ ls => ls) (run followed together).events =
        [("first", .connected none), ("second", .connected none), ("second", .connected none)] := by
  obtain ⟨-, -, hbetween, hrefused, hopened, -⟩ := turns_of_run down calm
  obtain ⟨hclose, hends⟩ :=
    hrefused 0 (.connectFailed "refused") (List.mem_of_getElem? (i := 1) rfl)
  have hagain := hopened 2 (List.mem_of_getElem? (i := 9) rfl)
  have hends' := hends.resolve_left fun hwaits => nomatch hwaits.1
  have honly : ∀ e ∈ together, e = .call .connect ∨ ∃ i, e = .answer i (.ok ()) := by
    simp [together]
  have hrest : (run followed together).AtRest := by
    intro i w hi
    match i with
    | 0 => cases hi
    | 1 => cases hi
    | _ + 2 => cases hi
  obtain ⟨hhistory, hlink, -, hheard⟩ :=
    (turns_of_run followed together).2.2.2.2.2 rfl honly List.mem_cons_self hrest
  exact ⟨hbetween 0 5 (by decide) ⟨rfl, rfl⟩ ⟨rfl, rfl⟩, hclose, hends'.2, hagain.2.2, hhistory,
    congrArg Link.connected hlink, hheard _⟩

end Race

end IlpConnector
