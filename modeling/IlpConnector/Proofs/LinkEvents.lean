import IlpConnector.Proofs.LinkTurns
import IlpConnector.Simulation.Network

/-!
# What the listeners of a link hear

A call that turns the flag of a link is reported once, to all who listen when it ends: that the link
is connected or disconnected, or why it could not be connected.  Only a call that fails to
disconnect ends without a word (`Watched.heard_of_run`).

So where the calls follow one another, a listener that was there all the time knows whether the link
is connected, unless the last thing that has happened is such a failure (`Race.Unreported`).
-/

namespace IlpConnector

namespace Listeners

variable {react : String → Listeners → Listeners} {ls : Listeners}

/-- The listeners after events, when they may change the listeners as they hear one. -/
def after (react : String → Listeners → Listeners) (ls : Listeners) (events : List LinkEvent) :
    Listeners :=
  events.foldl (fun now _ => (notify react now).2) ls

theorem hearing_toList (event : Option LinkEvent) :
    ls.hearing react event.toList = event.toList.flatMap fun e => ls.map (·, e) := by
  cases event with
  | none => rfl
  | some e => rfl

end Listeners

/-- What the listeners of a link hear of a call that has turned its flag, when it returns. -/
def LinkCall.report? (id : Option LinkId) : LinkCall → Except LinkError Unit → Option LinkEvent
  | connect, .ok () => some (.connected id)
  | connect, .error e => some (.error id e.message)
  | disconnect, .ok () => some (.disconnected id)
  | disconnect, .error _ => none

theorem LinkCall.report?_eq_none_iff {id : Option LinkId} {c : LinkCall}
    {result : Except LinkError Unit} :
    c.report? id result = none ↔ c = .disconnect ∧ ∃ e, result = .error e := by
  cases c <;> cases result <;> simp [report?]

/-- A call, the transport's answer to one, or a change of the listeners.  Those that hear of an
answer may change the listeners as well. -/
inductive WatchEvent where
  | call (call : LinkCall)
  | answer (number : ℕ) (result : Except LinkError Unit) (react : String → Listeners → Listeners)
  | listen (name : String)
  | unlisten (name : String)

/-- What the event is for the calls on the link. -/
def WatchEvent.race? : WatchEvent → Option RaceEvent
  | call c => some (.call c)
  | answer i result _ => some (.answer i result)
  | listen _ | unlisten _ => none

/-- Calls that race on a link, and what its listeners have heard, each time with the number of the
call that was reported. -/
structure Watched (τ η : Type) where
  race : Race τ η
  heard : List (ℕ × String × LinkEvent) := []

namespace Race

variable {τ η : Type} {r : Race τ η} {i j : ℕ} {w : LinkWait} {p : LinkProgress} {e : RaceEvent}
  {c : LinkCall} {result : Except LinkError Unit}

def withListeners (r : Race τ η) (ls : Listeners) : Race τ η :=
  { r with link := { r.link with listeners := ls } }

/-- What a call tells when it is answered. -/
def tells (r : Race τ η) (i : ℕ) (result : Except LinkError Unit) : List LinkEvent :=
  match r.calls[i]? with
  | some (.waiting wait) => (Link.resume wait result r.link).2.1
  | _ => []

/-- The last thing that has happened is that the transport has failed to close, and nobody was
told. -/
def Unreported (r : Race τ η) : Prop :=
  ∃ i e, r.history.getLast? = some (.answered i .close (.error e))

theorem tells_of_waits (h : r.Waits i w) :
    r.tells i result = (Link.resume w result r.link).2.1 := by
  unfold Waits at h
  rw [tells, h]

theorem tells_of_not_waits (h : ∀ w, ¬ r.Waits i w) : r.tells i result = [] := by
  unfold tells
  split
  · rename_i w hi
    exact absurd hi (h w)
  · rfl

/-- A call stays where it is while others go on. -/
theorem getElem?_calls_step (h : r.calls[i]? = some p)
    (he : ∀ result w, e = .answer i result → p ≠ .waiting w) : (r.step e).calls[i]? = some p := by
  have hi : i < r.calls.length := (List.getElem?_eq_some_iff.mp h).1
  cases e with
  | call c =>
    rw [Race.step, List.getElem?_append_left hi]
    exact h
  | answer j result =>
    by_cases hwait : ∃ w, r.Waits j w
    · obtain ⟨w, hw⟩ := hwait
      have hj : j ≠ i := by
        rintro rfl
        exact he result w rfl (Option.some.inj (h.symm.trans hw))
      rw [step_answer result hw, List.getElem?_set_ne hj]
      exact h
    · rw [step_answer_of_not_waits result (not_exists.mp hwait)]
      exact h

/-- A call that waits is answered: it waits again without a word, or it returns and is reported. -/
theorem Proceeds.answer (h : r.Proceeds i c true) (hw : r.Waits i w)
    (result : Except LinkError Unit) :
    (∃ w', (r.step (.answer i result)).Waits i w' ∧ r.tells i result = []) ∨
      ∃ returned, (r.step (.answer i result)).calls[i]? = some (.returned returned) ∧
        r.tells i result = (c.report? r.link.id returned).toList := by
  have hi : i < r.calls.length := (List.getElem?_eq_some_iff.mp hw).1
  obtain ⟨p, hp, hcourse⟩ := h
  obtain rfl := Option.some.inj (hp.symm.trans hw)
  rw [tells_of_waits hw]
  unfold Waits
  rw [step_answer result hw, List.getElem?_set_self hi]
  generalize r.historyOf i = hs at hcourse
  cases hcourse with
  | opening =>
    cases result with
    | ok u => exact Or.inr ⟨_, rfl, rfl⟩
    | error e => exact Or.inl ⟨_, rfl, rfl⟩
  | refused e => cases result <;> exact Or.inr ⟨_, rfl, rfl⟩
  | closing => cases result <;> exact Or.inr ⟨_, rfl, rfl⟩

end Race

namespace Watched

variable {τ η : Type} {w : Watched τ η} {l : Link τ η} {es : List WatchEvent} {e : WatchEvent}
  {i n m : ℕ} {c : LinkCall} {won : Bool} {name : String}

/-- Who listens to the link. -/
def listeners (w : Watched τ η) : Listeners := w.race.link.listeners

/-- The listeners that an event finds hear of it, whatever they do about each other then. -/
def step (w : Watched τ η) : WatchEvent → Watched τ η
  | .call c => { w with race := w.race.step (.call c) }
  | .answer i result react =>
    let events := w.race.tells i result
    { race := (w.race.step (.answer i result)).withListeners (w.listeners.after react events)
      heard := w.heard ++ (w.listeners.hearing react events).map (i, ·) }
  | .listen name => { w with race := w.race.withListeners (w.listeners.add name) }
  | .unlisten name => { w with race := w.race.withListeners (w.listeners.remove name) }

/-- What happens on a link on which no call has begun yet. -/
def run (l : Link τ η) (es : List WatchEvent) : Watched τ η :=
  es.foldl step { race := { link := l } }

/-- What is heard of one call: by whom, and in which order. -/
def heardOf (w : Watched τ η) (i : ℕ) : List (String × LinkEvent) :=
  (w.heard.filter (·.1 = i)).map Prod.snd

/-- What a listener has heard last. -/
def lastHeard (w : Watched τ η) (name : String) : Option LinkEvent :=
  (w.heard.filter (·.2.1 = name)).getLast?.map (·.2.2)

theorem run_take_succ (l : Link τ η) (es : List WatchEvent) (n : ℕ) :
    run l (es.take (n + 1)) = es[n]?.elim (run l (es.take n)) (run l (es.take n)).step :=
  Race.foldl_take_succ step { race := { link := l } } es n

/-! ## The calls -/

/-- Listening does not touch the calls. -/
theorem exists_race_step (w : Watched τ η) (e : WatchEvent) : ∃ ls,
    (w.step e).race = (e.race?.elim w.race w.race.step).withListeners ls := by
  cases e with
  | call c => exact ⟨(w.race.step (.call c)).link.listeners, rfl⟩
  | answer | listen | unlisten => exact ⟨_, rfl⟩

theorem numbered_step (h : w.race.Numbered) (e : WatchEvent) : (w.step e).race.Numbered := by
  obtain ⟨ls, hrace⟩ := w.exists_race_step e
  rw [hrace]
  cases e.race? with
  | none => exact h
  | some e => exact h.step e

theorem proceeds_step (h : w.race.Proceeds i c won) (e : WatchEvent) :
    (w.step e).race.Proceeds i c won := by
  obtain ⟨ls, hrace⟩ := w.exists_race_step e
  rw [hrace]
  cases e.race? with
  | none => exact h
  | some e => exact h.step e

theorem id_step (w : Watched τ η) (e : WatchEvent) :
    (w.step e).race.link.id = w.race.link.id := by
  obtain ⟨ls, hrace⟩ := w.exists_race_step e
  rw [hrace]
  cases e.race? with
  | none => rfl
  | some e =>
    change (w.race.step e).link.id = w.race.link.id
    rw [Race.link_step]

theorem run_keeps {P : Watched τ η → Prop} (hl : P { race := { link := l } })
    (hstep : ∀ w e, P w → P (w.step e)) (es : List WatchEvent) : P (run l es) :=
  List.foldlRecOn es step hl fun w hw e _ => hstep w e hw

theorem numbered_run (l : Link τ η) (es : List WatchEvent) : (run l es).race.Numbered :=
  run_keeps (P := fun w => w.race.Numbered) nofun (fun _ e h => numbered_step h e) es

theorem id_run (l : Link τ η) (es : List WatchEvent) : (run l es).race.link.id = l.id :=
  run_keeps (P := fun w => w.race.link.id = l.id) rfl (fun w e h => (id_step w e).trans h) es

theorem proceeds_run (hn : es[n]? = some (.call c)) (hm : n < m) :
    (run l (es.take m)).race.Proceeds (run l (es.take n)).race.calls.length c
      (c.turns (run l (es.take n)).race.link) :=
  Race.foldl_take_since (P := fun w : Watched τ η => w.race.Proceeds _ c _) hn
    (Race.proceeds_call (numbered_run _ _) c) (fun _ e h => proceeds_step h e) hm

/-! ## Who hears what -/

/-- The answer to a call is all that is heard of it at once. -/
theorem heardOf_step (w : Watched τ η) (e : WatchEvent) (i : ℕ) :
    (w.step e).heardOf i = w.heardOf i ++ match e with
      | .answer j result react =>
        if j = i then w.listeners.hearing react (w.race.tells j result) else []
      | _ => [] := by
  unfold heardOf
  cases e with
  | answer j result react =>
    change ((w.heard ++ (w.listeners.hearing react (w.race.tells j result)).map (j, ·)).filter
      (·.1 = i)).map Prod.snd = _
    rw [List.filter_append, List.map_append, List.filter_map]
    by_cases hj : j = i
    · subst hj
      simp [Function.comp_def]
    · simp [Function.comp_def, hj]
  | _ => exact (List.append_nil _).symm

/-- A call waits, and nothing has been heard of it. -/
structure Pending (w : Watched τ η) (i : ℕ) : Prop where
  waits : ∃ wait, w.race.Waits i wait
  unheard : w.heardOf i = []

/-- A call has returned, and this was heard of it. -/
structure Ended (w : Watched τ η) (i : ℕ) (result : Except LinkError Unit)
    (heard : List (String × LinkEvent)) : Prop where
  returned : w.race.calls[i]? = some (.returned result)
  heard : w.heardOf i = heard

/-- What is heard of a call that returns while these listen. -/
def reports (id : Option LinkId) (c : LinkCall) (result : Except LinkError Unit) (ls : Listeners) :
    List (String × LinkEvent) :=
  (c.report? id result).toList.flatMap fun e => ls.map (·, e)

theorem calls_step {p : LinkProgress} (h : w.race.calls[i]? = some p)
    (he : ∀ result react wait, e = .answer i result react → p ≠ .waiting wait) :
    (w.step e).race.calls[i]? = some p := by
  cases e with
  | call c => exact Race.getElem?_calls_step h nofun
  | answer j result react =>
    refine Race.getElem?_calls_step h fun result' wait hj => ?_
    obtain ⟨rfl, rfl⟩ := RaceEvent.answer.inj hj
    exact he result react wait rfl
  | listen | unlisten => exact h

theorem Ended.step {result : Except LinkError Unit} {heard : List (String × LinkEvent)}
    (h : w.Ended i result heard) (e : WatchEvent) : (w.step e).Ended i result heard := by
  refine ⟨calls_step h.returned fun _ _ _ _ => nofun, ?_⟩
  have hnothing : ∀ result', w.race.tells i result' = [] := fun result' =>
    Race.tells_of_not_waits fun wait hw => nomatch h.returned.symm.trans hw
  rw [heardOf_step, h.heard]
  cases e with
  | answer j result' react =>
    dsimp only
    split_ifs with hj
    · subst hj
      rw [hnothing]
      exact List.append_nil _
    · exact List.append_nil _
  | _ => exact List.append_nil _

/-- A call that waits goes on waiting, or is answered and reported. -/
theorem Pending.step (h : w.Pending i) (hproceeds : w.race.Proceeds i c true) (e : WatchEvent) :
    (w.step e).Pending i ∨ ∃ answer react result, e = .answer i answer react ∧
      (w.step e).Ended i result (reports w.race.link.id c result w.listeners) := by
  obtain ⟨wait, hwait⟩ := h.waits
  have hheard := w.heardOf_step e i
  rw [h.unheard, List.nil_append] at hheard
  by_cases he : ∃ answer react, e = .answer i answer react
  · obtain ⟨answer, react, rfl⟩ := he
    dsimp only at hheard
    rw [if_pos rfl] at hheard
    rcases hproceeds.answer hwait answer with ⟨wait', hwait', htells⟩ | ⟨result, hresult, htells⟩
    · refine Or.inl ⟨⟨wait', hwait'⟩, ?_⟩
      rw [hheard, htells]
      rfl
    · refine Or.inr ⟨answer, react, result, rfl, hresult, ?_⟩
      rw [hheard, htells, Listeners.hearing_toList]
      rfl
  · refine Or.inl ⟨⟨wait, ?_⟩, ?_⟩
    · exact calls_step hwait fun answer react _ heq => absurd ⟨answer, react, heq⟩ he
    · rw [hheard]
      cases e with
      | answer j answer react =>
        refine if_neg ?_
        rintro rfl
        exact he ⟨answer, react, rfl⟩
      | _ => rfl

/-- Only of calls that have begun is anything heard. -/
theorem heard_numbered (l : Link τ η) (es : List WatchEvent) :
    ∀ x ∈ (run l es).heard, x.1 < (run l es).race.calls.length := by
  refine run_keeps (P := fun w => ∀ x ∈ w.heard, x.1 < w.race.calls.length) nofun
    (fun w e h x hx => ?_) es
  cases e with
  | call c =>
    change x.1 < (w.race.step (.call c)).calls.length
    rw [Race.length_calls_step]
    exact Nat.lt_succ_of_lt (h x hx)
  | answer i result react =>
    change x.1 < (w.race.step (.answer i result)).calls.length
    rw [Race.length_calls_step]
    rcases List.mem_append.mp hx with hx | hx
    · exact h x hx
    · obtain ⟨y, hy, rfl⟩ := List.mem_map.mp hx
      by_cases hwait : ∃ wait, w.race.Waits i wait
      · obtain ⟨wait, hw⟩ := hwait
        exact (List.getElem?_eq_some_iff.mp hw).1
      · rw [Race.tells_of_not_waits (not_exists.mp hwait)] at hy
        cases hy
  | listen | unlisten => exact h x hx

theorem heardOf_of_new (l : Link τ η) (es : List WatchEvent) :
    (run l es).heardOf (run l es).race.calls.length = [] := by
  rw [heardOf, List.map_eq_nil_iff, List.filter_eq_nil_iff]
  exact fun x hx hi => Nat.ne_of_lt (heard_numbered l es x hx) (of_decide_eq_true hi)

/-- A call that turns the flag with the event `n` waits, or some event has ended it. -/
theorem pending_or_ended (hn : es[n]? = some (.call c))
    (hturns : c.turns (run l (es.take n)).race.link = true) (hm : n < m) :
    let i := (run l (es.take n)).race.calls.length
    (run l (es.take m)).Pending i ∨ ∃ k answer react result, n < k ∧ k < m ∧
      es[k]? = some (.answer i answer react) ∧ (run l (es.take k)).Pending i ∧
      (run l (es.take (k + 1))).Ended i result
        (reports l.id c result (run l (es.take k)).listeners) ∧
      (run l (es.take m)).Ended i result
        (reports l.id c result (run l (es.take k)).listeners) := by
  intro i
  induction hm with
  | refl =>
    rw [run_take_succ, hn]
    refine Or.inl ⟨⟨c.firstWait, ?_⟩, ?_⟩
    · exact ((Race.waits_call_of_turns hturns).2.2 _ _).mpr (Or.inr ⟨rfl, rfl⟩)
    · exact heardOf_of_new l (es.take n)
  | @step m hm ih =>
    rw [run_take_succ]
    cases he : es[m]? with
    | none =>
      rcases ih with hpending | ⟨k, answer, react, result, hnk, hkm, h⟩
      · exact Or.inl hpending
      · exact Or.inr ⟨k, answer, react, result, hnk, Nat.lt_succ_of_lt hkm, h⟩
    | some e =>
      rcases ih with hpending | ⟨k, answer, react, result, hnk, hkm, hk, hbefore, hafter, hended⟩
      · have hproceeds := proceeds_run (l := l) hn hm
        rw [hturns] at hproceeds
        rcases hpending.step hproceeds e with hstill | ⟨answer, react, result, rfl, hended⟩
        · exact Or.inl hstill
        · rw [id_run] at hended
          refine Or.inr ⟨m, answer, react, result, hm, Nat.lt_succ_self m, he, hpending, ?_, hended⟩
          rw [run_take_succ, he]
          exact hended
      · exact Or.inr ⟨k, answer, react, result, hnk, Nat.lt_succ_of_lt hkm, hk, hbefore, hafter,
          hended.step e⟩

/-- Of a call that does not turn the flag nothing is ever heard. -/
theorem ended_of_idle (hn : es[n]? = some (.call c))
    (hidle : c.turns (run l (es.take n)).race.link = false) (hm : n < m) :
    (run l (es.take m)).Ended (run l (es.take n)).race.calls.length (.ok ()) [] := by
  have hproceeds := Race.proceeds_call (numbered_run l (es.take n)) c
  rw [hidle] at hproceeds
  exact Race.foldl_take_since (P := fun w : Watched τ η => w.Ended _ (.ok ()) []) hn
    ⟨hproceeds.of_idle.1, heardOf_of_new l (es.take n)⟩ (fun _ e h => h.step e) hm

/-! ## Calls that follow one another -/

theorem lastHeard_answer {result : Except LinkError Unit} {react : String → Listeners → Listeners}
    {event : LinkEvent} (hname : name ∈ w.listeners) (h : w.race.tells i result = [event]) :
    (w.step (.answer i result react)).lastHeard name = some event := by
  have hheard : (w.step (.answer i result react)).heard
      = w.heard ++ w.listeners.map fun listener => (i, listener, event) := by
    change w.heard ++ (w.listeners.hearing react (w.race.tells i result)).map (i, ·) = _
    rw [h]
    simp [Listeners.hearing, Listeners.notify]
  have hmem : (i, name, event) ∈ (w.listeners.map fun listener => (i, listener, event)).filter
      (·.2.1 = name) :=
    List.mem_filter.mpr ⟨List.mem_map_of_mem hname, decide_eq_true rfl⟩
  obtain ⟨x, hx⟩ := Option.isSome_iff_exists.mp
    (List.getLast?_isSome.mpr (List.ne_nil_of_mem hmem))
  obtain ⟨listener, -, rfl⟩ := List.mem_map.mp (List.mem_filter.mp (List.mem_of_getLast? hx)).1
  rw [lastHeard, hheard, List.filter_append, List.getLast?_append, hx]
  rfl

theorem heard_answer {result : Except LinkError Unit} {react : String → Listeners → Listeners}
    (h : w.race.tells i result = []) : (w.step (.answer i result react)).heard = w.heard := by
  change w.heard ++ (w.listeners.hearing react (w.race.tells i result)).map (i, ·) = _
  rw [h]
  exact List.append_nil _

/-- What a listener has heard last agrees with the flag, but for a failure that it was not told. -/
structure Knows (name : String) (w : Watched τ η) : Prop where
  unreported : w.race.Unreported →
    w.race.link.connected = false ∧ w.lastHeard name = some (.connected w.race.link.id)
  reported : ¬ w.race.Unreported →
    (w.lastHeard name = some (.connected w.race.link.id) ↔ w.race.link.connected = true)

/-- One call after the other, and what a listener has heard meanwhile. -/
structure InTurn (name : String) (w : Watched τ η) : Prop where
  alone : ∀ i j wait wait', w.race.Waits i wait → w.race.Waits j wait' → i = j
  connecting : ∀ i wait, w.race.Waits i wait → wait ≠ .disconnecting →
    w.race.link.connected = true
  disconnecting : ∀ i, w.race.Waits i .disconnecting →
    w.race.link.connected = false ∧ w.lastHeard name = some (.connected w.race.link.id)
  rest : w.race.AtRest → w.Knows name

theorem InTurn.of_rest (hrest : w.race.AtRest) (h : w.Knows name) : w.InTurn name :=
  ⟨fun i _ wait _ hi => absurd hi (hrest i wait), fun i wait hi => absurd hi (hrest i wait),
    fun i hi => absurd hi (hrest i _), fun _ => h⟩

theorem InTurn.call (h : w.InTurn name) (c : LinkCall) (hrest : w.race.AtRest) :
    (w.step (.call c)).InTurn name := by
  cases hturns : c.turns w.race.link with
  | false =>
    obtain ⟨hlink, hhistory, hwaits⟩ := Race.waits_call_of_idle hturns
    refine .of_rest (fun i wait hi => hrest i wait ((hwaits i wait).mp hi)) ?_
    obtain ⟨hun, hre⟩ := h.rest hrest
    have hsame : (w.step (.call c)).race.Unreported ↔ w.race.Unreported := by
      unfold Race.Unreported
      rw [← hhistory]
      rfl
    exact ⟨fun hu => hlink ▸ hun (hsame.mp hu), fun hu => hlink ▸ hre (hsame.not.mp hu)⟩
  | true =>
    obtain ⟨hflag, -, hwaits⟩ := Race.waits_call_of_turns hturns
    have honly : ∀ i wait, (w.step (.call c)).race.Waits i wait →
        i = w.race.calls.length ∧ wait = c.firstWait :=
      fun i wait hi => ((hwaits i wait).mp hi).resolve_left (hrest i wait)
    have hid : (w.step (.call c)).race.link.id = w.race.link.id := id_step w _
    refine ⟨fun i j wait wait' hi hj => ?_, fun i wait hi hne => ?_, fun i hi => ?_,
      fun hrest' => ?_⟩
    · rw [(honly i wait hi).1, (honly j wait' hj).1]
    · obtain rfl := (honly i wait hi).2
      cases c with
      | connect => exact hflag.trans hturns
      | disconnect => exact absurd rfl hne
    · cases c with
      | connect => exact nomatch (honly i _ hi).2
      | disconnect =>
        have hup : w.race.link.connected = true := hturns
        obtain ⟨hun, hre⟩ := h.rest hrest
        refine ⟨hflag.trans (by rw [hup]; rfl), ?_⟩
        rw [hid]
        refine (hre fun hu => ?_).mpr hup
        rw [(hun hu).1] at hup
        cases hup
    · exact absurd ((hwaits _ _).mpr (Or.inr ⟨rfl, rfl⟩)) (hrest' _ _)

/-- A call that has reported the link's state leaves the listener knowing it. -/
theorem InTurn.of_told {result : Except LinkError Unit} {react : String → Listeners → Listeners}
    {wait : LinkWait} {event : LinkEvent} {returned : Except LinkError Unit}
    (hname : name ∈ w.listeners) (hwait : w.race.Waits i wait)
    (halone : ∀ j wait', w.race.Waits j wait' → j = i)
    (hresume : (Link.resume wait result w.race.link).2 = ([event], .returned returned))
    (hflag : event = .connected w.race.link.id ↔
      (Link.resume wait result w.race.link).1.connected = true) :
    (w.step (.answer i result react)).InTurn name := by
  obtain ⟨hlink, -, hwaits⟩ := Race.waits_answer result hwait
  have htells : w.race.tells i result = [event] := by
    rw [Race.tells_of_waits hwait, hresume]
  have hheard : (w.step (.answer i result react)).lastHeard name = some event :=
    lastHeard_answer hname htells
  have hlast : (w.step (.answer i result react)).race.history.getLast? = some (.told i event) := by
    change (w.race.step (.answer i result)).history.getLast? = _
    rw [Race.step_answer result hwait, hresume]
    simp [Race.asks]
  have hconnected : (w.step (.answer i result react)).race.link.connected
      = (Link.resume wait result w.race.link).1.connected := by
    rw [← hlink]
    rfl
  refine .of_rest (fun j wait' hj => ?_) ⟨?_, fun _ => ?_⟩
  · rcases (hwaits j wait').mp hj with ⟨hne, hj⟩ | ⟨-, hp⟩
    · exact hne (halone j wait' hj)
    · rw [hresume] at hp
      cases hp
  · rintro ⟨j, e, hu⟩
    rw [hlast] at hu
    cases hu
  · rw [hheard, hconnected, id_step, Option.some.injEq]
    exact hflag

/-- Who listens does not matter for what has been heard. -/
theorem InTurn.listening (h : w.InTurn name) (ls : Listeners) :
    InTurn name { w with race := w.race.withListeners ls } :=
  ⟨h.alone, h.connecting, h.disconnecting,
    fun hrest => ⟨(h.rest hrest).unreported, (h.rest hrest).reported⟩⟩

theorem InTurn.answer (h : w.InTurn name) (i : ℕ) (result : Except LinkError Unit)
    (react : String → Listeners → Listeners) (hname : name ∈ w.listeners) :
    (w.step (.answer i result react)).InTurn name := by
  by_cases hwait : ∃ wait, w.race.Waits i wait
  · obtain ⟨wait, hw⟩ := hwait
    obtain ⟨hlink, -, hwaits⟩ := Race.waits_answer result hw
    have halone : ∀ j wait', w.race.Waits j wait' → j = i := fun j wait' hj => h.alone j i _ _ hj hw
    cases wait with
    | connecting =>
      have hup := h.connecting i _ hw nofun
      cases result with
      | ok u => exact .of_told hname hw halone rfl (iff_of_true rfl hup)
      | error e =>
        have honly : ∀ j wait', (w.step (.answer i (.error e) react)).race.Waits j wait' →
            j = i ∧ wait' = .tearingDown e := by
          intro j wait' hj
          rcases (hwaits j wait').mp hj with ⟨hne, hj⟩ | ⟨rfl, hp⟩
          · exact absurd (halone j wait' hj) hne
          · exact ⟨rfl, (LinkProgress.waiting.inj hp).symm⟩
        refine ⟨fun j k wait' wait'' hj hk => ?_, fun _ _ _ _ => ?_, fun j hj => ?_,
          fun hrest => ?_⟩
        · rw [(honly j wait' hj).1, (honly k wait'' hk).1]
        · exact (congrArg Link.connected hlink).trans hup
        · exact nomatch (honly j _ hj).2
        · exact absurd ((hwaits i _).mpr (Or.inr ⟨rfl, rfl⟩)) (hrest i (.tearingDown e))
    | tearingDown e =>
      cases result <;> exact .of_told hname hw halone rfl (iff_of_false nofun nofun)
    | disconnecting =>
      obtain ⟨hdown, hlast⟩ := h.disconnecting i hw
      cases result with
      | ok u =>
        exact .of_told hname hw halone rfl (iff_of_false nofun (Bool.eq_false_iff.mp hdown))
      | error e =>
        have hheard : (w.step (.answer i (.error e) react)).heard = w.heard :=
          heard_answer (Race.tells_of_waits hw)
        have hlast' : (w.step (.answer i (.error e) react)).race.history.getLast?
            = some (.answered i .close (.error e)) := by
          change (w.race.step (.answer i (.error e))).history.getLast? = _
          rw [Race.step_answer _ hw]
          simp [Race.asks, Link.resume, LinkWait.step]
        refine .of_rest (fun j wait' hj => ?_) ⟨fun _ => ⟨?_, ?_⟩, fun hnot => ?_⟩
        · rcases (hwaits j wait').mp hj with ⟨hne, hj⟩ | ⟨-, hp⟩
          · exact hne (halone j wait' hj)
          · cases hp
        · exact (congrArg Link.connected hlink).trans hdown
        · rw [lastHeard, hheard, id_step]
          exact hlast
        · exact absurd ⟨i, e, hlast'⟩ hnot
  · have htells : w.race.tells i result = [] := Race.tells_of_not_waits (not_exists.mp hwait)
    have hstep : w.step (.answer i result react)
        = { w with race := w.race.withListeners (w.listeners.after react []) } := by
      refine congrArg₂ Watched.mk ?_ (heard_answer htells)
      rw [Race.step_answer_of_not_waits result (not_exists.mp hwait), htells]
    rw [hstep]
    exact h.listening _

theorem InTurn.step (h : w.InTurn name) (e : WatchEvent)
    (hrest : ∀ c, e = .call c → w.race.AtRest) (hname : name ∈ w.listeners) :
    (w.step e).InTurn name := by
  cases e with
  | call c => exact h.call c (hrest c rfl)
  | answer i result react => exact h.answer i result react hname
  | listen | unlisten => exact h.listening _

theorem inTurn_run (hl : l.connected = false)
    (hrest : ∀ n c, es[n]? = some (.call c) → (run l (es.take n)).race.AtRest)
    (hname : ∀ n, name ∈ (run l (es.take n)).listeners) (n : ℕ) :
    (run l (es.take n)).InTurn name := by
  have hfresh : ¬ (run l []).race.Unreported := nofun
  have hbegin : (run l []).InTurn name := .of_rest nofun ⟨fun hu => absurd hu hfresh,
    fun _ => iff_of_false nofun (Bool.eq_false_iff.mp hl)⟩
  exact Race.foldl_take_keeps (P := fun w : Watched τ η => w.InTurn name) hbegin
    (fun n e he h => h.step e (fun c hc => hrest n c (hc ▸ he)) (hname n)) n

end Watched

/-- The listeners of a link in a network hear its events one after the other. -/
theorem Network.heard_tell (n : Network) (l : NetworkLink) (events : List LinkEvent) :
    (n.tell l events).heard = n.heard ++ l.listeners.hearing (fun _ ls => ls) events := by
  have hkeep : ∀ (names : List String) (ls : Listeners),
      names.foldl (fun now _ => now) ls = ls := by
    intro names ls
    induction names with
    | nil => rfl
    | cons name names ih => exact ih
  have hheard : l.listeners.hearing (fun _ ls => ls) events
      = events.flatMap fun e => l.listeners.map (·, e) := by
    induction events with
    | nil => rfl
    | cons e events ih =>
      rw [Listeners.hearing, List.flatMap_cons, Listeners.notify, hkeep, ih]
  rw [hheard]
  rfl

namespace Watched

variable {τ η : Type}

/-- Whatever happens on a link and among its listeners: each call that turns the flag waits and is
not heard of, until an answer of the transport ends it; then all that listen just then hear the one
event of how it has ended, in the order in which they were added, and never any other.  Only if it
has failed to disconnect there is no such event.  Of calls that do not turn the flag nobody hears.

If the link begins disconnected and each call begins when all before have returned, then whenever
none waits, a listener that was always there has heard last that the link is connected just if it
is; if and only if the last thing that has happened is not that the transport has failed to close.

The listeners in a network hear events in this way. -/
theorem heard_of_run (l : Link τ η) (es : List WatchEvent) :
    let w := run l es
    (∀ n c, es[n]? = some (.call c) →
      let before := run l (es.take n)
      let i := before.race.calls.length
      w.race.Proceeds i c (c.turns before.race.link) ∧
      (c.turns before.race.link = false → w.Ended i (.ok ()) []) ∧
      (c.turns before.race.link = true → w.Pending i ∨
        ∃ k answer react result, n < k ∧ es[k]? = some (.answer i answer react) ∧
          let heard := reports l.id c result (run l (es.take k)).listeners
          (run l (es.take k)).Pending i ∧ (run l (es.take (k + 1))).Ended i result heard ∧
            w.Ended i result heard ∧
            (c.report? l.id result = none ↔ c = .disconnect ∧ ∃ e, result = .error e))) ∧
    (l.connected = false →
      (∀ n c, es[n]? = some (.call c) → (run l (es.take n)).race.AtRest) → w.race.AtRest →
      ∀ name, (∀ n, name ∈ (run l (es.take n)).listeners) →
        ((w.lastHeard name = some (.connected l.id) ↔ w.race.link.connected = true) ↔
          ¬ w.race.Unreported)) ∧
    ∀ (n : Network) (link : NetworkLink) (events : List LinkEvent),
      (n.tell link events).heard = n.heard ++ link.listeners.hearing (fun _ ls => ls) events := by
  intro w
  have hw : w = run l (es.take es.length) := by rw [List.take_length]
  refine ⟨fun n c hn => ?_, fun hl hrest hend name hname => ?_, Network.heard_tell⟩
  · have hlt : n < es.length := (List.getElem?_eq_some_iff.mp hn).1
    intro before i
    rw [hw]
    refine ⟨proceeds_run hn hlt, fun hidle => ended_of_idle hn hidle hlt, fun hturns => ?_⟩
    rcases pending_or_ended hn hturns hlt with hpending |
      ⟨k, answer, react, result, hnk, -, hk, hbefore, hafter, hended⟩
    · exact Or.inl hpending
    · exact Or.inr ⟨k, answer, react, result, hnk, hk, hbefore, hafter, hended,
        LinkCall.report?_eq_none_iff⟩
  · have hinv : w.InTurn name := hw ▸ inTurn_run hl hrest hname es.length
    obtain ⟨hun, hre⟩ := hinv.rest hend
    rw [show w.race.link.id = l.id from id_run l es] at hun hre
    constructor
    · intro hlaw hu
      obtain ⟨hdown, hlast⟩ := hun hu
      rw [hlaw.mp hlast] at hdown
      cases hdown
    · exact hre

/-! ### Up and down -/

/-- The link is connected, and then disconnected, which the transport answers in some way. -/
def upAndDown (result : Except LinkError Unit) : List WatchEvent :=
  [.call .connect, .answer 0 (.ok ()) fun _ ls => ls, .call .disconnect,
    .answer 1 result fun _ ls => ls]

theorem upAndDown_inTurn (result : Except LinkError Unit) {n : ℕ} {c : LinkCall}
    (hn : (upAndDown result)[n]? = some (.call c)) :
    (run Race.followed ((upAndDown result).take n)).race.AtRest := by
  intro i wait hi
  match n with
  | 0 => cases hi
  | 2 =>
    match i with
    | 0 => cases hi
    | _ + 1 => cases hi
  | 1 => cases hn
  | 3 => cases hn
  | _ + 4 => cases hn

theorem upAndDown_listeners (result : Except LinkError Unit) (n : ℕ) :
    (run Race.followed ((upAndDown result).take n)).listeners = Race.followed.listeners := by
  match n with
  | 0 => rfl
  | 1 => rfl
  | 2 => rfl
  | 3 => rfl
  | n + 4 =>
    rw [List.take_of_length_le (by simp [upAndDown])]
    cases result <;> rfl

theorem upAndDown_rest (result : Except LinkError Unit) :
    (run Race.followed (upAndDown result)).race.AtRest := by
  intro i wait hi
  match i with
  | 0 => cases result <;> cases hi
  | 1 => cases result <;> cases hi
  | _ + 2 => cases result <;> cases hi

/-- All that listen, one of them twice, hear that the link is disconnected. -/
theorem heard_of_run_disconnected :
    let w := run Race.followed (upAndDown (.ok ()))
    w.heardOf 1
        = [("first", .disconnected none), ("second", .disconnected none),
          ("second", .disconnected none)] ∧
      Race.followed.connected = false ∧ ¬ w.race.Unreported ∧
      (w.lastHeard "first" = some (.connected none) ↔ w.race.link.connected = true) := by
  intro w
  obtain ⟨hcalls, hlast, -⟩ := heard_of_run Race.followed (upAndDown (.ok ()))
  obtain ⟨-, -, hturns⟩ := hcalls 2 .disconnect rfl
  have hunreported : ¬ w.race.Unreported := fun ⟨i, e, hu⟩ => nomatch hu
  refine ⟨?_, rfl, hunreported, ?_⟩
  · rcases hturns rfl with hpending | ⟨k, answer, react, result, -, -, -, -, hended, -⟩
    · obtain ⟨wait, hw⟩ := hpending.waits
      exact absurd hw (upAndDown_rest (.ok ()) 1 wait)
    · obtain rfl : Except.ok () = result :=
        LinkProgress.returned.inj (Option.some.inj hended.returned)
      refine hended.heard.trans ?_
      rw [reports, upAndDown_listeners]
      rfl
  · refine (hlast rfl (fun n c => upAndDown_inTurn _) (upAndDown_rest _) "first" fun n => ?_).mpr
      hunreported
    rw [upAndDown_listeners]
    exact List.mem_cons_self

/-- The transport fails to close: nobody hears of it, so all that listen still take the link for
connected, and it is not. -/
theorem failed_disconnect_unheard :
    ∃ (l : Link Unit Unit) (es : List WatchEvent) (e : LinkError) (name : String),
      let w := run l es
      l.connected = false ∧
      (∀ n c, es[n]? = some (.call c) → (run l (es.take n)).race.AtRest) ∧ w.race.AtRest ∧
      (∀ n, name ∈ (run l (es.take n)).listeners) ∧
      es[2]? = some (.call .disconnect) ∧
      LinkCall.disconnect.turns (run l (es.take 2)).race.link = true ∧
      w.race.calls[(run l (es.take 2)).race.calls.length]? = some (.returned (.error e)) ∧
      w.heardOf (run l (es.take 2)).race.calls.length = [] ∧
      w.lastHeard name = some (.connected l.id) ∧ w.race.link.connected = false := by
  refine ⟨Race.followed, upAndDown (.error (.disconnectFailed "refused")), _, "first", rfl,
    fun n c => upAndDown_inTurn _, upAndDown_rest _, fun n => ?_, rfl, rfl, rfl, rfl, rfl, rfl⟩
  rw [upAndDown_listeners]
  exact List.mem_cons_self

end Watched

end IlpConnector
