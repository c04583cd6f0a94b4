import IlpConnector.Routing.ForwardingTable
import IlpConnector.Proofs.Dict

/-!
# Prefixes by their segments

A prefix matches the addresses whose segments begin with its own (`AddressPrefix.matches_iff`).  So
of several prefixes that match one address the deeper ones lie under the others
(`AddressPrefix.covers_of_matches`), no two are equally deep (`AddressPrefix.eq_of_matches`), and
the route that a table has for an address is the one whose prefix lies under all others that match
(`ForwardingTable.best?_eq_some_iff`).
-/

namespace IlpConnector

namespace Address

theorem text_of_ofText {s : String} {a : Address} (h : ofText s = .ok a) : a.text = s := by
  unfold ofText at h
  split at h
  · cases h
    rfl
  · cases h

theorem splitDots_eq_splitOn (cs : List Char) : splitDots cs = cs.splitOn '.' := by
  induction cs with
  | nil => rw [splitDots, List.splitOn_nil]
  | cons c cs ih =>
    rw [splitDots, ih, List.splitOn, List.splitOn, List.splitOnP_cons_eq_if_modifyHead]
    by_cases hc : c = '.'
    · simp [hc]
    · rw [if_neg hc, if_neg (by simpa using hc)]
      cases h : List.splitOnP (fun x => x == '.') cs with
      | nil => exact absurd h (List.splitOnP_ne_nil _ _)
      | cons s ss => rfl

theorem splitDots_append_dot (cs ds : List Char) :
    splitDots (cs ++ '.' :: ds) = splitDots cs ++ splitDots ds := by
  simp only [splitDots_eq_splitOn, List.splitOn_append_cons_self]

theorem intercalate_splitDots (cs : List Char) : ['.'].intercalate (splitDots cs) = cs := by
  rw [splitDots_eq_splitOn, List.intercalate_splitOn]

theorem intercalate_append {sep : List Char} :
    ∀ (xs : List (List Char)) {ys : List (List Char)}, xs ≠ [] → ys ≠ [] →
      sep.intercalate (xs ++ ys) = sep.intercalate xs ++ sep ++ sep.intercalate ys
  | [], _, h, _ => absurd rfl h
  | [x], ys, _, hys => by
    rw [List.singleton_append, List.intercalate_cons_of_ne_nil hys, List.intercalate_singleton]
  | x :: x' :: xs, ys, _, hys => by
    rw [List.cons_append, List.intercalate_cons_of_ne_nil (by simp),
      List.intercalate_cons_of_ne_nil (List.cons_ne_nil x' xs),
      intercalate_append (x' :: xs) (by simp) hys]
    simp only [List.append_assoc]

theorem splitDots_injective : Function.Injective splitDots :=
  Function.LeftInverse.injective intercalate_splitDots

theorem splitDots_ne_nil (cs : List Char) : splitDots cs ≠ [] := by
  rw [splitDots_eq_splitOn]
  exact List.splitOnP_ne_nil _ _

end Address

open Address (splitDots)

theorem continues_iff {front whole : List Char} :
    continues front whole = true ↔ whole = front ∨ ∃ rest, whole = front ++ '.' :: rest := by
  rw [continues, Bool.and_eq_true, List.isPrefixOf_iff_prefix]
  constructor
  · rintro ⟨⟨rest, rfl⟩, h⟩
    rw [List.drop_left] at h
    cases rest with
    | nil => exact Or.inl (List.append_nil _)
    | cons c rest =>
      have hc : c = '.' := by simpa using h
      exact Or.inr ⟨rest, by rw [hc]⟩
  · rintro (rfl | ⟨rest, rfl⟩)
    · simp
    · simp

/-- A text goes on after a dot just if its segments go on. -/
theorem continues_iff_isPrefix {front whole : List Char} :
    continues front whole = true ↔ splitDots front <+: splitDots whole := by
  rw [continues_iff]
  constructor
  · rintro (rfl | ⟨rest, rfl⟩)
    · exact List.prefix_rfl
    · rw [Address.splitDots_append_dot]
      exact List.prefix_append _ _
  · rintro ⟨segments, h⟩
    rw [← Address.intercalate_splitDots whole, ← h]
    cases segments with
    | nil => exact Or.inl (by rw [List.append_nil, Address.intercalate_splitDots])
    | cons s ss =>
      refine Or.inr ⟨['.'].intercalate (s :: ss), ?_⟩
      rw [Address.intercalate_append _ (Address.splitDots_ne_nil front) (List.cons_ne_nil s ss),
        Address.intercalate_splitDots, List.append_assoc]
      rfl

namespace AddressPrefix

variable {p q : AddressPrefix} {a : Address}

theorem matches_iff : p.Matches a ↔ splitDots p.chars <+: splitDots a.chars :=
  continues_iff_isPrefix

theorem covers_iff : p.Covers q ↔ splitDots p.chars <+: splitDots q.chars :=
  continues_iff_isPrefix

theorem eq_of_splitDots_eq (h : splitDots p.chars = splitDots q.chars) : p = q := by
  have hchars := Address.splitDots_injective h
  obtain ⟨s, hs⟩ := p
  obtain ⟨t, ht⟩ := q
  rw [mk.injEq]
  exact String.toList_injective hchars

/-- Of two prefixes that match one address, the deeper one lies under the other. -/
theorem covers_of_matches (hp : p.Matches a) (hq : q.Matches a) (h : p.depth ≤ q.depth) :
    p.Covers q :=
  covers_iff.mpr (List.prefix_of_prefix_length_le (matches_iff.mp hp) (matches_iff.mp hq) h)

theorem Covers.antisymm (h : p.Covers q) (h' : q.Covers p) : p = q :=
  eq_of_splitDots_eq ((covers_iff.mp h).eq_of_length_le (covers_iff.mp h').length_le)

/-- No two prefixes that match one address are equally deep. -/
theorem eq_of_matches (hp : p.Matches a) (hq : q.Matches a) (h : p.depth = q.depth) : p = q :=
  (covers_of_matches hp hq (Nat.le_of_eq h)).antisymm
    (covers_of_matches hq hp (Nat.le_of_eq h.symm))

end AddressPrefix

/-! ## The deepest match -/

section Deepest

variable {α : Type} {target : α → AddressPrefix} {a : Address}

/-- The deeper one of the deepest entry so far, if there is one, and another entry. -/
def deeper (target : α → AddressPrefix) (best : Option α) (e : α) : Option α :=
  match best with
  | none => some e
  | some b => if (target b).depth ≤ (target e).depth then some e else some b

theorem deepestMatch_eq (target : α → AddressPrefix) (a : Address) (entries : List α) :
    deepestMatch target a entries
      = (entries.filter fun e => (target e).Matches a).foldl (deeper target) none := rfl

/-- Of some entries and a further one, one is picked, and none is deeper. -/
theorem exists_foldl_deeper (target : α → AddressPrefix) (entries : List α) (b : α) :
    ∃ x ∈ b :: entries, entries.foldl (deeper target) (some b) = some x ∧
      ∀ e ∈ b :: entries, (target e).depth ≤ (target x).depth := by
  induction entries generalizing b with
  | nil => exact ⟨b, List.mem_singleton_self b, rfl, by simp⟩
  | cons e entries ih =>
    obtain ⟨y, hy, hmem, hb, he⟩ : ∃ y, deeper target (some b) e = some y ∧ y ∈ [b, e] ∧
        (target b).depth ≤ (target y).depth ∧ (target e).depth ≤ (target y).depth := by
      unfold deeper
      dsimp only
      split_ifs with h
      · exact ⟨e, rfl, by simp, h, Nat.le_refl _⟩
      · exact ⟨b, rfl, by simp, Nat.le_refl _, Nat.le_of_not_le h⟩
    obtain ⟨x, hx, hfold, hdepth⟩ := ih y
    rw [List.forall_mem_cons] at hdepth
    refine ⟨x, ?_, by rw [List.foldl_cons, hy, hfold], ?_⟩
    · rcases List.mem_cons.mp hx with rfl | hx
      · exact List.mem_append_left entries hmem
      · exact List.mem_cons_of_mem _ (List.mem_cons_of_mem _ hx)
    · rw [List.forall_mem_cons, List.forall_mem_cons]
      exact ⟨Nat.le_trans hb hdepth.1, Nat.le_trans he hdepth.1, hdepth.2⟩

/-- If an entry matches an address, one is picked, and it lies under all that match. -/
theorem exists_deepestMatch {entries : List α} (h : ∃ e ∈ entries, (target e).Matches a) :
    ∃ x ∈ entries, deepestMatch target a entries = some x ∧ (target x).Matches a ∧
      ∀ e ∈ entries, (target e).Matches a → (target e).Covers (target x) := by
  have hfilter : ∀ e, e ∈ entries.filter (fun e => (target e).Matches a) ↔
      e ∈ entries ∧ (target e).Matches a := by
    intro e
    rw [List.mem_filter, decide_eq_true_eq]
  rw [deepestMatch_eq]
  cases hl : entries.filter fun e => (target e).Matches a with
  | nil =>
    obtain ⟨e, he⟩ := h
    rw [← hfilter, hl] at he
    cases he
  | cons b rest =>
    obtain ⟨x, hx, hfold, hdepth⟩ := exists_foldl_deeper target rest b
    rw [← hl] at hx hdepth
    obtain ⟨hmem, hmatch⟩ := (hfilter x).mp hx
    exact ⟨x, hmem, hfold, hmatch, fun e he hea =>
      AddressPrefix.covers_of_matches hea hmatch (hdepth e ((hfilter e).mpr ⟨he, hea⟩))⟩

/-- Where no two entries have one prefix, the pick is the entry that matches and lies under all that
match. -/
theorem deepestMatch_eq_some_iff {entries : List α}
    (hinj : ∀ e ∈ entries, ∀ e' ∈ entries, target e = target e' → e = e') {x : α} :
    deepestMatch target a entries = some x ↔ x ∈ entries ∧ (target x).Matches a ∧
      ∀ e ∈ entries, (target e).Matches a → (target e).Covers (target x) := by
  constructor
  · intro h
    have hsome : ∃ e ∈ entries, (target e).Matches a := by
      by_contra hnone
      have hfilter : entries.filter (fun e => (target e).Matches a) = [] := by
        simpa using hnone
      rw [deepestMatch_eq, hfilter] at h
      cases h
    obtain ⟨y, hy, hpick, hmatch, hcovers⟩ := exists_deepestMatch hsome
    obtain rfl : x = y := Option.some.inj (h.symm.trans hpick)
    exact ⟨hy, hmatch, hcovers⟩
  · rintro ⟨hx, hmatch, hcovers⟩
    obtain ⟨y, hy, hpick, hmatch', hcovers'⟩ := exists_deepestMatch ⟨x, hx, hmatch⟩
    rw [hpick, hinj x hx y hy ((hcovers' x hx hmatch).antisymm (hcovers y hy hmatch'))]

end Deepest

namespace ForwardingTable

variable {t : ForwardingTable} {a : Address} {e : Route}

/-- Every route is kept under its prefix. -/
def Keyed (t : ForwardingTable) : Prop := ∀ p e, t.get? p = some e → e.target = p

theorem mem_values_routes (ht : t.Keyed) : e ∈ t.routes.values ↔ t.get? e.target = some e := by
  rw [Dict.mem_values]
  constructor
  · rintro ⟨p, hp⟩
    rw [ht p e hp]
    exact hp
  · exact fun h => ⟨_, h⟩

/-- No two routes have one prefix. -/
theorem eq_of_target_eq (ht : t.Keyed) :
    ∀ e ∈ t.routes.values, ∀ e' ∈ t.routes.values, e.target = e'.target → e = e' := by
  intro e he e' he' h
  rw [mem_values_routes ht] at he he'
  exact Option.some.inj (he.symm.trans (h ▸ he'))

/-- The route for an address is the one that matches and whose prefix lies under all that match. -/
theorem best?_eq_some_iff (ht : t.Keyed) : t.best? a = some e ↔
    t.get? e.target = some e ∧ e.target.Matches a ∧
      ∀ p e', t.get? p = some e' → p.Matches a → p.Covers e.target := by
  rw [best?, deepestMatch_eq_some_iff (eq_of_target_eq ht), mem_values_routes ht]
  refine and_congr_right fun _ => and_congr_right fun _ =>
    ⟨fun h p e' he' hp => ?_, fun h e' he' => ?_⟩
  · obtain rfl := ht p e' he'
    exact h e' ((mem_values_routes ht).mpr he') hp
  · exact h e'.target e' ((mem_values_routes ht).mp he')

theorem exists_best?_iff (ht : t.Keyed) :
    (∃ e, t.best? a = some e) ↔ ∃ p e, t.get? p = some e ∧ p.Matches a := by
  constructor
  · rintro ⟨e, he⟩
    obtain ⟨hget, hmatch, -⟩ := (best?_eq_some_iff ht).mp he
    exact ⟨_, e, hget, hmatch⟩
  · rintro ⟨p, e, he, hp⟩
    have hsome : ∃ e ∈ t.routes.values, e.target.Matches a :=
      ⟨e, Dict.mem_values.mpr ⟨p, he⟩, (ht p e he).symm ▸ hp⟩
    obtain ⟨x, -, hx, -⟩ := exists_deepestMatch hsome
    exact ⟨x, hx⟩

end ForwardingTable

end IlpConnector
