import IlpConnector.Proofs.Dict
import IlpConnector.Routing.ForwardingTable

/-!
# Entries and changes of the forwarding table

What each operation does to the entry of a prefix (`get?_set`, `get?_withdraw`, `get?_withdrawVia`),
and that it only ever adds to the log.
-/

namespace IlpConnector

namespace ForwardingTable

variable (t : ForwardingTable)

/-! ## Entries -/

@[simp] theorem get?_fresh (id : TableId) (p : AddressPrefix) : (fresh id).get? p = none := rfl

theorem get?_set (r : Route) (p : AddressPrefix) :
    (t.set r).2.get? p = if r.target = p then some r else t.get? p := by
  unfold set
  split_ifs with hsame hp hp
  · rw [← hp]
    exact hsame
  · rfl
  · rw [← hp]
    exact Dict.get?_insert_self _ _ _
  · exact Dict.get?_insert_of_ne _ _ hp

/-- Setting a route is a change unless the very route is there already. -/
theorem set_fst_iff (r : Route) : (t.set r).1 = true ↔ t.get? r.target ≠ some r := by
  unfold set
  split_ifs with hsame <;> simp [hsame]

theorem set_fst_eq_false {r : Route} (h : (t.set r).1 = false) : t.get? r.target = some r :=
  not_not.mp ((t.set_fst_iff r).not.mp (by simp [h]))

theorem get?_withdraw (q p : AddressPrefix) :
    (t.withdraw q).2.get? p = if q = p then none else t.get? p := by
  unfold withdraw
  split
  · rename_i hnone
    split_ifs with hp
    · rw [← hp]
      exact hnone
    · rfl
  · split_ifs with hp
    · rw [← hp]
      exact Dict.get?_erase_self _ _
    · exact Dict.get?_erase_of_ne _ hp

theorem get?_withdrawAll (qs : List AddressPrefix) (p : AddressPrefix) :
    (t.withdrawAll qs).get? p = if p ∈ qs then none else t.get? p := by
  unfold withdrawAll
  induction qs generalizing t with
  | nil => simp
  | cons q qs ih =>
    rw [List.foldl_cons, ih, get?_withdraw]
    by_cases hq : q = p
    · simp [hq]
    · simp [hq, Ne.symm hq]

theorem mem_targetsVia {a : AccountId} {p : AddressPrefix} :
    p ∈ t.targetsVia a ↔ ∃ r, t.get? p = some r ∧ r.nextHop = a := by
  simp only [targetsVia, Dict.mem_keys, Dict.get?_filter, Option.filter_eq_some_iff,
    decide_eq_true_eq, get?]

/-- What does not lead to the account stays. -/
theorem get?_withdrawVia {a : AccountId} {p : AddressPrefix} {r : Route} :
    (t.withdrawVia a).2.get? p = some r ↔ t.get? p = some r ∧ r.nextHop ≠ a := by
  simp only [withdrawVia, get?_withdrawAll, mem_targetsVia]
  split_ifs with h
  · obtain ⟨r', hr', hvia⟩ := h
    rw [hr']
    simp only [Option.some.injEq, false_iff, not_and, not_not]
    rintro rfl
    exact hvia
  · refine ⟨fun hr => ⟨hr, fun hvia => h ⟨r, hr, hvia⟩⟩, And.left⟩

theorem get?_withdrawVia_of_notMem {a : AccountId} {p : AddressPrefix}
    (h : p ∉ t.targetsVia a) : (t.withdrawVia a).2.get? p = t.get? p := by
  rw [withdrawVia, get?_withdrawAll, if_neg h]

end ForwardingTable

end IlpConnector
