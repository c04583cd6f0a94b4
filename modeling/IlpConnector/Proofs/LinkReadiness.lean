import IlpConnector.Packet.Basic
import IlpConnector.Proofs.LinkTurns

/-!
# Sending over a link that is being connected

Packets are sent while calls race on a link (`LinkUse`).  Whenever the flag is up, the transport has
been opened and not been asked to close since (`Race.Opened`), or a call that connects has not
returned yet (`Race.Opening`); in a race without overlaps it is never both.  So packets go out over
an open transport, and callers hear that the link is connected when it is, as long as nobody sends or
connects before the call that has turned the flag returns (`Race.ready_of_uses`).
-/

namespace IlpConnector

namespace Happening

variable {hs new : List Happening} {x : Happening}

/-- The transport has been opened. -/
def opens : Happening → Bool
  | answered _ .open (.ok _) => true
  | _ => false

/-- The transport was opened, and has not been asked to close since. -/
def Opened (hs : List Happening) : Prop :=
  ∃ before x after, hs = before ++ x :: after ∧ x.opens = true ∧
    ∀ y ∈ after, y.isAsked .close = false

theorem not_opened_nil : ¬ Opened [] := by
  rintro ⟨before, x, after, heq, -⟩
  simp at heq

theorem opened_concat :
    Opened (hs ++ [x]) ↔ x.opens = true ∨ (x.isAsked .close = false ∧ Opened hs) := by
  constructor
  · rintro ⟨before, y, after, heq, hy, hafter⟩
    rcases List.eq_nil_or_concat after with rfl | ⟨after, z, rfl⟩
    · obtain ⟨-, hxy⟩ := List.append_inj' heq rfl
      exact Or.inl (List.singleton_inj.mp hxy ▸ hy)
    · rw [List.concat_eq_append, ← List.cons_append, ← List.append_assoc] at heq
      obtain ⟨rfl, hxz⟩ := List.append_inj' heq rfl
      rw [List.concat_eq_append, List.forall_mem_append] at hafter
      rw [List.singleton_inj.mp hxz]
      exact Or.inr ⟨hafter.2 z (List.mem_singleton_self z), before, y, after, rfl, hy, hafter.1⟩
  · rintro (hx | ⟨hx, before, y, after, rfl, hy, hafter⟩)
    · exact ⟨hs, x, [], rfl, hx, by simp⟩
    · refine ⟨before, y, after ++ [x], by simp, hy, ?_⟩
      rw [List.forall_mem_append]
      exact ⟨hafter, by simpa using hx⟩

/-- What neither opens the transport nor asks it to close makes no difference. -/
theorem opened_append (h : ∀ x ∈ new, x.opens = false ∧ x.isAsked .close = false) :
    Opened (hs ++ new) ↔ Opened hs := by
  induction new generalizing hs with
  | nil => simp
  | cons x new ih =>
    rw [List.forall_mem_cons] at h
    rw [List.append_cons, ih h.2, opened_concat]
    simp [h.1]

end Happening

namespace Race

variable {τ η : Type} {r : Race τ η} {l : Link τ η} {c : LinkCall} {i : ℕ} {w : LinkWait}

/-- The transport was opened, and has not been asked to close since. -/
def Opened (r : Race τ η) : Prop := Happening.Opened r.history

/-- A call that connects waits: the transport is being opened, or it has failed to open and is being
closed. -/
def Opening (r : Race τ η) : Prop := ∃ i w, r.Waits i w ∧ w ≠ .disconnecting

/-! ## What one event does -/

theorem history_call_of_turns (h : c.turns r.link = true) :
    (r.step (.call c)).history = r.history ++ [.asked r.calls.length c.firstWait.step] := by
  simp [step, begin_eq, h, asks]

theorem opened_connect : (r.step (.call .connect)).Opened ↔ r.Opened := by
  cases hturns : LinkCall.connect.turns r.link with
  | true =>
    rw [Opened, history_call_of_turns hturns, Happening.opened_concat]
    simp [Happening.opens, Happening.isAsked, LinkCall.firstWait, LinkWait.step, Opened]
  | false => rw [Opened, (waits_call_of_idle hturns).2.1, Opened]

/-- The answer to a call that connects opens the transport, or asks it to close. -/
theorem opened_answer_connecting {result : Except LinkError Unit} (h : r.Waits i .connecting) :
    (r.step (.answer i result)).Opened ↔ result = .ok () := by
  rw [Opened, step_answer result h, List.append_cons]
  cases result with
  | ok u =>
    have hquiet : ∀ x ∈ [Happening.told i (.connected r.link.id)],
        x.opens = false ∧ x.isAsked .close = false := by
      simp [Happening.opens, Happening.isAsked]
    refine iff_of_true ?_ rfl
    exact (Happening.opened_append hquiet).mpr (Happening.opened_concat.mpr (Or.inl rfl))
  | error e =>
    refine iff_of_false (fun h => ?_) (by simp)
    rcases Happening.opened_concat.mp h with h | ⟨h, -⟩
    · cases h
    · cases h

theorem opened_answer_closing {result : Except LinkError Unit} (h : r.Waits i w)
    (hw : w ≠ .connecting) : (r.step (.answer i result)).Opened ↔ r.Opened := by
  rw [Opened, step_answer result h]
  refine Happening.opened_append fun x hx => ?_
  cases w with
  | connecting => exact absurd rfl hw
  | tearingDown e =>
    have hx' : x = .answered i .close result ∨ x = .told i (.error r.link.id e.message) := by
      cases result <;> simpa [Link.resume, asks, LinkWait.step] using hx
    rcases hx' with rfl | rfl <;> exact ⟨rfl, rfl⟩
  | disconnecting =>
    have hx' : x = .answered i .close result ∨ x = .told i (.disconnected r.link.id) := by
      cases result with
      | ok u => simpa [Link.resume, asks, LinkWait.step] using hx
      | error e => exact Or.inl (by simpa [Link.resume, asks, LinkWait.step] using hx)
    rcases hx' with rfl | rfl <;> exact ⟨rfl, rfl⟩

/-! ## What a run keeps -/

/-- The flag is up for a reason. -/
def Backed (r : Race τ η) : Prop := r.link.connected = true → r.Opened ∨ r.Opening

theorem Backed.call (h : r.Backed) (c : LinkCall) : (r.step (.call c)).Backed := by
  cases hturns : c.turns r.link with
  | true =>
    obtain ⟨hflag, -, hwaits⟩ := waits_call_of_turns hturns
    cases c with
    | connect =>
      exact fun _ => Or.inr ⟨_, .connecting, (hwaits _ _).mpr (Or.inr ⟨rfl, rfl⟩), nofun⟩
    | disconnect =>
      intro hup
      rw [hflag, show r.link.connected = true from hturns] at hup
      cases hup
  | false =>
    obtain ⟨hlink, hhistory, hwaits⟩ := waits_call_of_idle hturns
    simpa only [Backed, Opened, Opening, hlink, hhistory, hwaits] using h

theorem Backed.answer (h : r.Backed) (i : ℕ) (result : Except LinkError Unit) :
    (r.step (.answer i result)).Backed := by
  by_cases hwait : ∃ w, r.Waits i w
  · obtain ⟨w, hw⟩ := hwait
    obtain ⟨hlink, -, hwaits⟩ := waits_answer result hw
    intro hup
    cases w with
    | connecting =>
      cases result with
      | ok u => exact Or.inl ((opened_answer_connecting hw).mpr rfl)
      | error e =>
        exact Or.inr ⟨i, .tearingDown e, (hwaits _ _).mpr (Or.inr ⟨rfl, rfl⟩), nofun⟩
    | tearingDown e =>
      rw [hlink] at hup
      cases result <;> cases hup
    | disconnecting =>
      have hup' : r.link.connected = true := by
        rw [hlink] at hup
        cases result <;> exact hup
      rcases h hup' with hopened | ⟨j, w, hj, hne⟩
      · exact Or.inl ((opened_answer_closing hw nofun).mpr hopened)
      · refine Or.inr ⟨j, w, (hwaits j w).mpr (Or.inl ⟨?_, hj⟩), hne⟩
        rintro rfl
        exact hne (LinkProgress.waiting.inj (Option.some.inj (hj.symm.trans hw)))
  · rw [step_answer_of_not_waits result (not_exists.mp hwait)]
    exact h

/-- In a race without overlaps the transport is not open while the flag is down, or while a call that
connects waits. -/
structure Distinct (r : Race τ η) : Prop where
  inStep : r.InStep
  down : r.link.connected = false → ¬ r.Opened
  opening : r.Opening → ¬ r.Opened

theorem distinct_fresh (h : l.connected = false) : (run l []).Distinct where
  inStep := inStep_fresh h
  down _ := Happening.not_opened_nil
  opening _ := Happening.not_opened_nil

theorem Distinct.call (h : r.Distinct) (ha : r.Admits c) : (r.step (.call c)).Distinct := by
  have hinStep := h.inStep.call ha
  cases hturns : c.turns r.link with
  | true =>
    have hnot : ¬ (r.step (.call c)).Opened := by
      cases c with
      | connect =>
        have hdown : r.link.connected = false := by simpa [LinkCall.turns] using hturns
        exact opened_connect.not.mpr (h.down hdown)
      | disconnect =>
        intro hopened
        rw [Opened, history_call_of_turns hturns, Happening.opened_concat] at hopened
        rcases hopened with hopened | ⟨hopened, -⟩ <;> cases hopened
    exact ⟨hinStep, fun _ => hnot, fun _ => hnot⟩
  | false =>
    obtain ⟨hlink, hhistory, hwaits⟩ := waits_call_of_idle hturns
    refine ⟨hinStep, ?_, ?_⟩
    · simpa only [Opened, hlink, hhistory] using h.down
    · simpa only [Opened, Opening, hwaits, hhistory] using h.opening

theorem Distinct.answer (h : r.Distinct) (i : ℕ) (result : Except LinkError Unit) :
    (r.step (.answer i result)).Distinct := by
  by_cases hwait : ∃ w, r.Waits i w
  · obtain ⟨w, hw⟩ := hwait
    have hinStep := h.inStep.answer i result
    obtain ⟨hlink, -, hwaits⟩ := waits_answer result hw
    cases w with
    | connecting =>
      cases result with
      | ok u =>
        refine ⟨hinStep, fun hdown => ?_, fun ⟨j, w', hj, _⟩ => ?_⟩
        · rw [hlink] at hdown
          exact absurd (h.inStep.connecting i hw) (Bool.eq_false_iff.mp hdown)
        · -- nothing else was going on while the transport was being opened
          rcases (hwaits j w').mp hj with ⟨hne, hj⟩ | ⟨-, hp⟩
          · exact absurd (h.inStep.exclusive i j _ w' hw hj rfl) (Ne.symm hne)
          · cases hp
      | error e =>
        have hnot : ¬ (r.step (.answer i (.error e))).Opened :=
          (opened_answer_connecting hw).not.mpr nofun
        exact ⟨hinStep, fun _ => hnot, fun _ => hnot⟩
    | tearingDown e =>
      have hnot : ¬ (r.step (.answer i result)).Opened :=
        (opened_answer_closing hw nofun).not.mpr (h.opening ⟨i, _, hw, nofun⟩)
      exact ⟨hinStep, fun _ => hnot, fun _ => hnot⟩
    | disconnecting =>
      have hnot : ¬ (r.step (.answer i result)).Opened :=
        (opened_answer_closing hw nofun).not.mpr (h.down (h.inStep.disconnecting i hw))
      exact ⟨hinStep, fun _ => hnot, fun _ => hnot⟩
  · rw [step_answer_of_not_waits result (not_exists.mp hwait)]
    exact h

end Race

/-! ## Sending in between -/

/-- What is done with a link: a call on it, an answer of its transport, or sending a packet. -/
inductive LinkUse where
  | turn (e : RaceEvent)
  | send (p : Prepare)

namespace LinkUse

def turn? : LinkUse → Option RaceEvent
  | turn e => some e
  | send _ => none

/-- The use counts on a link that is connected: a packet is sent, or the caller wants to know when it
is connected. -/
def relies : LinkUse → Bool
  | send _ | turn (.call .connect) => true
  | turn _ => false

end LinkUse

namespace Race

variable {τ η : Type} {r : Race τ η} {l : Link τ η} {us : List LinkUse} {k n : ℕ} {c : LinkCall}
  {won : Bool} {p : Prepare}

/-- The race after some uses of the link. -/
def after (l : Link τ η) (us : List LinkUse) : Race τ η := run l (us.filterMap LinkUse.turn?)

/-- The use `n` sends a packet, and the link hands it to its transport. -/
def Passes (l : Link τ η) (us : List LinkUse) (n : ℕ) (p : Prepare) : Prop :=
  us[n]? = some (.send p) ∧ ∃ transport, (after l (us.take n)).link.outgoing = .ok transport

/-- The use `k` is a call that connects, and it returns without an error at the use `n`. -/
structure Connects (l : Link τ η) (us : List LinkUse) (k n : ℕ) : Prop where
  call : us[k]? = some (.turn (.call .connect))
  le : k ≤ n
  earlier : ∀ result,
    (after l (us.take n)).calls[(after l (us.take k)).calls.length]? ≠ some (.returned result)
  returns : (after l (us.take (n + 1))).calls[(after l (us.take k)).calls.length]?
    = some (.returned (.ok ()))

/-- Each packet that is handed to the transport, and each caller who is told that the link is
connected, finds the transport open. -/
structure Truthful (l : Link τ η) (us : List LinkUse) : Prop where
  passes : ∀ n p, Passes l us n p → (after l (us.take n)).Opened
  connects : ∀ k n, Connects l us k n → (after l (us.take (n + 1))).Opened

/-- The flag is up already, and the transport is not opened yet. -/
def Early (r : Race τ η) : Prop := r.link.connected = true ∧ r.Opening

/-- Each call that turns the flag finds the transport doing nothing that it would disturb. -/
def Admitted (l : Link τ η) (us : List LinkUse) : Prop :=
  ∀ n c, us[n]? = some (.turn (.call c)) → (after l (us.take n)).Admits c

theorem after_take_succ (l : Link τ η) (us : List LinkUse) (n : ℕ) :
    after l (us.take (n + 1))
      = (us[n]?.bind LinkUse.turn?).elim (after l (us.take n)) (after l (us.take n)).step := by
  rw [after, List.take_add_one, List.filterMap_append, run, List.foldl_append]
  cases us[n]? with
  | none => rfl
  | some u => cases u <;> rfl

theorem after_of_turn {e : RaceEvent} (h : us[n]? = some (.turn e)) :
    after l (us.take (n + 1)) = (after l (us.take n)).step e := by
  rw [after_take_succ, h]
  rfl

/-- What a fresh race has, and every event keeps that occurs, the race has at all times. -/
theorem after_keeps {P : Race τ η → Prop} (hl : P { link := l })
    (hstep : ∀ n e, us[n]? = some (.turn e) → P (after l (us.take n)) →
      P ((after l (us.take n)).step e)) (n : ℕ) : P (after l (us.take n)) := by
  induction n with
  | zero => exact hl
  | succ n ih =>
    rw [after_take_succ]
    cases hu : us[n]? with
    | none => exact ih
    | some u =>
      cases u with
      | turn e => exact hstep n e hu ih
      | send p => exact ih

theorem backed_after (hl : l.connected = false) (us : List LinkUse) (n : ℕ) :
    (after l (us.take n)).Backed := by
  refine after_keeps (fun hup => ?_) (fun n e _ h => ?_) n
  · rw [show l.connected = true from hup] at hl
    cases hl
  · cases e with
    | call c => exact h.call c
    | answer i result => exact h.answer i result

theorem distinct_after (hl : l.connected = false) (h : Admitted l us) (n : ℕ) :
    (after l (us.take n)).Distinct := by
  refine after_keeps (distinct_fresh hl) (fun n e hu hn => ?_) n
  cases e with
  | call c => exact hn.call (h n c hu)
  | answer i result => exact hn.answer i result

theorem proceeds_after (hk : us[k]? = some (.turn (.call c))) (hn : k < n) :
    (after l (us.take n)).Proceeds (after l (us.take k)).calls.length c
      (c.turns (after l (us.take k)).link) := by
  induction hn with
  | refl =>
    rw [after_of_turn hk]
    exact proceeds_call (numbered_run _ _) c
  | @step n _ ih =>
    rw [after_take_succ]
    cases us[n]? with
    | none => exact ih
    | some u =>
      cases u with
      | turn e => exact ih.step e
      | send p => exact ih

/-- A call that connects and has to wait returns without an error when the transport has opened. -/
theorem Proceeds.returns_step {i : ℕ} {e : RaceEvent} (h : r.Proceeds i .connect won)
    (hearlier : ∀ result, r.calls[i]? ≠ some (.returned result))
    (hreturns : (r.step e).calls[i]? = some (.returned (.ok ()))) :
    r.Waits i .connecting ∧ e = .answer i (.ok ()) := by
  obtain ⟨p, hp, hcourse⟩ := h
  have hi : i < r.calls.length := (List.getElem?_eq_some_iff.mp hp).1
  cases e with
  | call c =>
    rw [Race.step, List.getElem?_append_left hi] at hreturns
    exact absurd hreturns (hearlier _)
  | answer j result =>
    by_cases hwait : ∃ w, r.Waits j w
    · obtain ⟨w, hw⟩ := hwait
      rw [step_answer result hw] at hreturns
      by_cases hj : j = i
      · subst hj
        obtain rfl := Option.some.inj (hp.symm.trans hw)
        rw [List.getElem?_set_self hi] at hreturns
        generalize r.historyOf j = hs at hcourse
        cases hcourse with
        | opening =>
          cases result with
          | ok u => exact ⟨hw, rfl⟩
          | error e => cases hreturns
        | refused e => cases result <;> cases hreturns
      · rw [List.getElem?_set_ne hj] at hreturns
        exact absurd hreturns (hearlier _)
    · rw [step_answer_of_not_waits result (not_exists.mp hwait)] at hreturns
      exact absurd hreturns (hearlier _)

/-- A call that connects is told so at once if the flag is up, or else when the transport opens. -/
theorem Connects.cases (h : Connects l us k n) :
    (k = n ∧ (after l (us.take n)).link.connected = true) ∨
      ∃ i, (after l (us.take n)).Waits i .connecting ∧
        us[n]? = some (.turn (.answer i (.ok ()))) := by
  obtain ⟨hk, hle, hearlier, hreturns⟩ := h
  rcases Nat.eq_or_lt_of_le hle with rfl | hlt
  · refine Or.inl ⟨rfl, ?_⟩
    by_contra hdown
    have hturns : LinkCall.connect.turns (after l (us.take k)).link = true := by
      simpa [LinkCall.turns] using hdown
    rw [after_of_turn hk] at hreturns
    have hwaits := ((waits_call_of_turns hturns).2.2 _ _).mpr (Or.inr ⟨rfl, rfl⟩)
    cases hwaits.symm.trans hreturns
  · have hproceeds := proceeds_after (l := l) hk hlt
    cases hu : us[n]?.bind LinkUse.turn? with
    | none =>
      rw [after_take_succ, hu] at hreturns
      exact absurd hreturns (hearlier _)
    | some e =>
      rw [after_take_succ, hu] at hreturns
      obtain ⟨hw, rfl⟩ := hproceeds.returns_step hearlier hreturns
      refine Or.inr ⟨_, hw, ?_⟩
      obtain ⟨u, hu, hturn⟩ := Option.bind_eq_some_iff.mp hu
      cases u with
      | turn e => rw [hu, Option.some.inj hturn]
      | send p => cases hturn

/-- A caller who finds the flag up returns at once. -/
theorem connects_of_connected (hn : us[n]? = some (.turn (.call .connect)))
    (hup : (after l (us.take n)).link.connected = true) : Connects l us n n := by
  have hidle : LinkCall.connect.turns (after l (us.take n)).link = false := by
    simpa [LinkCall.turns] using hup
  refine ⟨hn, Nat.le_refl n, fun result => by simp, ?_⟩
  rw [after_of_turn hn]
  simp [step, begin_eq, hidle]

theorem opened_after_connect (hn : us[n]? = some (.turn (.call .connect))) :
    (after l (us.take (n + 1))).Opened ↔ (after l (us.take n)).Opened := by
  rw [after_of_turn hn]
  exact opened_connect

theorem passes_iff : Passes l us n p ↔
    us[n]? = some (.send p) ∧ (after l (us.take n)).link.connected = true := by
  refine and_congr_right fun _ => ?_
  unfold Link.outgoing
  cases (after l (us.take n)).link.connected <;> simp

/-- As long as nobody counts on the link too early, all find the transport open. -/
theorem truthful_of_not_early (hl : l.connected = false)
    (h : ∀ n u, us[n]? = some u → u.relies = true → ¬ (after l (us.take n)).Early) :
    Truthful l us := by
  have hopened : ∀ n u, us[n]? = some u → u.relies = true →
      (after l (us.take n)).link.connected = true → (after l (us.take n)).Opened :=
    fun n u hu hrelies hup => (backed_after hl us n hup).resolve_right
      fun hopening => h n u hu hrelies ⟨hup, hopening⟩
  constructor
  · intro n p hpasses
    obtain ⟨hsend, hup⟩ := passes_iff.mp hpasses
    exact hopened n _ hsend rfl hup
  · intro k n hconnects
    rcases hconnects.cases with ⟨rfl, hup⟩ | ⟨i, hw, hu⟩
    · exact (opened_after_connect hconnects.call).mpr (hopened k _ hconnects.call rfl hup)
    · rw [after_of_turn hu]
      exact (opened_answer_connecting hw).mpr rfl

/-- In a race without overlaps, all who count on the link too early find the transport not open. -/
theorem not_early_of_truthful (hl : l.connected = false) (ha : Admitted l us) (h : Truthful l us)
    (u : LinkUse) (hu : us[n]? = some u) (hrelies : u.relies = true) :
    ¬ (after l (us.take n)).Early := by
  rintro ⟨hup, hopening⟩
  refine (distinct_after hl ha n).opening hopening ?_
  match u with
  | .send p => exact h.passes n p (passes_iff.mpr ⟨hu, hup⟩)
  | .turn (.call .connect) =>
    exact (opened_after_connect hu).mp (h.connects n n (connects_of_connected hu hup))
  | .turn (.call .disconnect) => cases hrelies
  | .turn (.answer i result) => cases hrelies

/-- The flag is down and nothing has been asked of the transport. -/
structure Untouched (r : Race τ η) : Prop where
  down : r.link.connected = false
  rest : r.AtRest
  shut : ¬ r.Opened

theorem Untouched.step (h : r.Untouched) {e : RaceEvent} (he : e ≠ .call .connect) :
    (r.step e).Untouched := by
  match e with
  | .call .connect => exact absurd rfl he
  | .call .disconnect =>
    obtain ⟨hlink, hhistory, hwaits⟩ := waits_call_of_idle (c := .disconnect) h.down
    refine ⟨hlink ▸ h.down, fun i w hi => h.rest i w ((hwaits i w).mp hi), ?_⟩
    rw [Opened, hhistory]
    exact h.shut
  | .answer i result =>
    rw [step_answer_of_not_waits result (h.rest i)]
    exact h

theorem untouched_after (hl : l.connected = false)
    (h : ∀ m < n, us[m]? ≠ some (.turn (.call .connect))) :
    (after l (us.take n)).Untouched := by
  induction n with
  | zero => exact ⟨hl, nofun, Happening.not_opened_nil⟩
  | succ n ih =>
    have hn := ih fun m hm => h m (Nat.lt_succ_of_lt hm)
    rw [after_take_succ]
    cases hu : us[n]?.bind LinkUse.turn? with
    | none => exact hn
    | some e =>
      refine hn.step ?_
      rintro rfl
      obtain ⟨u, hu, hturn⟩ := Option.bind_eq_some_iff.mp hu
      cases u with
      | turn e => exact h n (Nat.lt_succ_self n) (hu.trans (by rw [Option.some.inj hturn]))
      | send p => cases hturn

/-- The flag is up before the transport is opened, as soon as anyone connects. -/
theorem opened_of_connected_iff (hl : l.connected = false) :
    (∀ n, (after l (us.take n)).link.connected = true → (after l (us.take n)).Opened) ↔
      ∀ n : ℕ, us[n]? ≠ some (.turn (.call .connect)) := by
  constructor
  · intro h n
    induction n using Nat.strongRecOn with
    | _ n ih =>
      intro hn
      have huntouched := untouched_after hl ih
      have hturns : LinkCall.connect.turns (after l (us.take n)).link = true := by
        simpa [LinkCall.turns] using huntouched.down
      have hup : (after l (us.take (n + 1))).link.connected = true := by
        rw [after_of_turn hn, (waits_call_of_turns hturns).1, huntouched.down]
        rfl
      exact huntouched.shut ((opened_after_connect hn).mp (h (n + 1) hup))
  · intro h n hup
    have hdown := (untouched_after (n := n) hl fun m _ => h m).down
    rw [hup] at hdown
    cases hdown

/-- However calls, answers of the transport and packets that are sent follow each other on a link
that begins disconnected: whenever the flag is up, the transport is open or a call that connects has
not returned yet.  If nobody sends or connects while the flag is up and such a call has not returned,
each packet that is handed to the transport and each caller who is told that the link is connected
finds the transport open; in a race without overlaps only then.  The flag itself is up too early as
soon as anyone connects. -/
theorem ready_of_uses (hl : l.connected = false) (us : List LinkUse) :
    let Patient := ∀ n u, us[n]? = some u → u.relies = true → ¬ (after l (us.take n)).Early
    (∀ n, (after l (us.take n)).link.connected = true →
      (after l (us.take n)).Opened ∨ (after l (us.take n)).Opening) ∧
    (Patient → Truthful l us) ∧ (Admitted l us → (Truthful l us ↔ Patient)) ∧
    ((∀ n, (after l (us.take n)).link.connected = true → (after l (us.take n)).Opened) ↔
      ∀ n : ℕ, us[n]? ≠ some (.turn (.call .connect))) := by
  intro Patient
  refine ⟨backed_after hl us, truthful_of_not_early hl, fun ha => ⟨fun h n u hu hrelies => ?_,
    truthful_of_not_early hl⟩, opened_of_connected_iff hl⟩
  exact not_early_of_truthful hl ha h u hu hrelies

/-! ### A packet that is sent too early -/

/-- A packet without anything in it. -/
def nothing : Prepare :=
  ⟨0, ⟨0⟩, .replicate 32 0, ⟨"example.receiver", by decide +kernel⟩, []⟩

/-- The link is connected, and then used. -/
def inTurn : List LinkUse :=
  [.turn (.call .connect), .turn (.answer 0 (.ok ())), .send nothing, .turn (.call .connect)]

theorem ready_of_uses_inTurn :
    down.connected = false ∧ Passes down inTurn 2 nothing ∧ Connects down inTurn 3 3 ∧
      (after down (inTurn.take 2)).Opened ∧ (after down inTurn).Opened := by
  have hpatient : ∀ n u, inTurn[n]? = some u → u.relies = true →
      ¬ (after down (inTurn.take n)).Early := by
    rintro n u hu hrelies ⟨hup, i, w, hi, -⟩
    match n with
    | 0 => cases hi
    | 1 =>
      obtain rfl := Option.some.inj hu
      cases hrelies
    | 2 => match i with
      | 0 => cases hi
      | _ + 1 => cases hi
    | 3 => match i with
      | 0 => cases hi
      | _ + 1 => cases hi
    | _ + 4 => cases hu
  have h := (ready_of_uses (l := down) rfl inTurn).2.1 hpatient
  have hpasses : Passes down inTurn 2 nothing := passes_iff.mpr ⟨rfl, rfl⟩
  have hconnects : Connects down inTurn 3 3 := connects_of_connected rfl rfl
  exact ⟨rfl, hpasses, hconnects, h.passes _ _ hpasses, h.connects _ _ hconnects⟩

/-- The transport refuses to open.  While it is asked and while it is closed again, a packet is sent
over the link, and another caller is told that the link is connected. -/
def hasty : List LinkUse :=
  [.turn (.call .connect), .send nothing, .turn (.call .connect),
    .turn (.answer 0 (.error (.connectFailed "refused"))), .send nothing, .turn (.call .connect),
    .turn (.answer 0 (.ok ()))]

/-- Packets are handed to a transport that is never opened, and callers are told that the link is
connected, which it never is. -/
theorem passed_without_opening :
    ∃ (l : Link Unit Unit) (us : List LinkUse) (p : Prepare),
      l.connected = false ∧ Admitted l us ∧
      (∀ x ∈ (after l us).history, x.opens = false) ∧
      Passes l us 1 p ∧ Connects l us 2 2 ∧ Passes l us 4 p ∧ Connects l us 5 5 ∧
      ¬ Truthful l us := by
  have hadmitted : Admitted down hasty := by
    intro n c hc hturns i w hi
    match n with
    | 0 => cases hi
    | 2 =>
      obtain rfl := RaceEvent.call.inj (LinkUse.turn.inj (Option.some.inj hc))
      cases hturns
    | 5 =>
      obtain rfl := RaceEvent.call.inj (LinkUse.turn.inj (Option.some.inj hc))
      cases hturns
    | 1 => cases hc
    | 3 => cases hc
    | 4 => cases hc
    | 6 => cases hc
    | _ + 7 => cases hc
  have hpasses : Passes down hasty 1 nothing := passes_iff.mpr ⟨rfl, rfl⟩
  refine ⟨down, hasty, nothing, rfl, hadmitted, ?_, hpasses, connects_of_connected rfl rfl,
    passes_iff.mpr ⟨rfl, rfl⟩, connects_of_connected rfl rfl, fun h => ?_⟩
  · have hhistory : (after down hasty).history = [.asked 0 .open,
        .answered 0 .open (.error (.connectFailed "refused")), .asked 0 .close,
        .answered 0 .close (.ok ()), .told 0 (.error none _)] := rfl
    simp [hhistory, Happening.opens]
  · refine not_early_of_truthful rfl hadmitted h _ hpasses.1 rfl ⟨rfl, 0, .connecting, rfl, nofun⟩

end Race

end IlpConnector
