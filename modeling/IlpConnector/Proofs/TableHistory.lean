import IlpConnector.Proofs.LogReplay
import IlpConnector.Proofs.Prefix
import Mathlib.Data.List.Sort
import Mathlib.Data.String.Basic

/-!
# The history of a forwarding table

The log of a table is its history (`ForwardingTable.Recorded`): it replays to the routes, every
entry stands at its epoch, and none repeats what was so already.  Each operation keeps this, by
adding entries of which each is a change (`ForwardingTable.Recorded.add`), or starts anew.

Taking away the routes to an account has one outcome, in whatever order the routes are found
(`ForwardingTable.withdrawFound_eq`), and reading on in the log skips and repeats nothing
(`ForwardingTable.readOn_eq`).
-/

namespace IlpConnector

namespace ForwardingTable

variable {t : ForwardingTable} {p : AddressPrefix} {a : AccountId}

/-! ## The log beside the routes -/

/-- The log is the history of the routes. -/
structure Recorded (t : ForwardingTable) : Prop where
  replay : RouteChange.replay some ∅ t.log = t.routes
  targets : ∀ c ∈ t.log, ∀ r, c.route = some r → r.target = c.target
  epochs : ∀ (n : ℕ) (c : RouteChange), t.log[n]? = some c → c.epoch = .ofNat n
  /-- What an entry says was not so before. -/
  changes : ∀ (n : ℕ) (c : RouteChange), t.log[n]? = some c →
    (RouteChange.replay some ∅ (t.log.take n)).get? c.target ≠ c.route

theorem recorded_fresh (id : TableId) : (fresh id).Recorded where
  replay := rfl
  targets c hc := absurd hc List.not_mem_nil
  epochs n c hc := by simp [fresh] at hc
  changes n c hc := by simp [fresh] at hc

theorem getElem?_logged {route : Option Route} {n : ℕ} {c : RouteChange}
    (h : (t.logged p route)[n]? = some c) :
    (n < t.log.length ∧ t.log[n]? = some c) ∨ (n = t.log.length ∧ c = ⟨t.epoch, p, route⟩) := by
  unfold logged at h
  rcases Nat.lt_trichotomy n t.log.length with hn | hn | hn
  · rw [List.getElem?_append_left hn] at h
    exact Or.inl ⟨hn, h⟩
  · rw [hn, List.getElem?_concat_length, Option.some.injEq] at h
    exact Or.inr ⟨hn, h.symm⟩
  · rw [List.getElem?_eq_none (by rw [List.length_append, List.length_singleton]; omega)] at h
    cases h

/-- One more change, for a prefix whose route was another one. -/
theorem Recorded.add (h : t.Recorded) (route : Option Route)
    (htarget : ∀ r, route = some r → r.target = p) (hne : t.get? p ≠ route) :
    Recorded { t with
      routes := RouteChange.follow some t.routes ⟨t.epoch, p, route⟩
      log := t.logged p route } where
  replay := by
    have happend : RouteChange.replay some ∅ (t.logged p route)
        = RouteChange.follow some (RouteChange.replay some ∅ t.log) ⟨t.epoch, p, route⟩ :=
      List.foldl_append
    rw [happend, h.replay]
  targets c hc r hr := by
    rcases List.mem_append.mp hc with hc | hc
    · exact h.targets c hc r hr
    · obtain rfl := List.mem_singleton.mp hc
      exact htarget r hr
  epochs n c hc := by
    rcases getElem?_logged hc with ⟨-, hc⟩ | ⟨rfl, rfl⟩
    · exact h.epochs n c hc
    · rfl
  changes n c hc := by
    dsimp only
    rcases getElem?_logged hc with ⟨hn, hc⟩ | ⟨rfl, rfl⟩
    · rw [logged, List.take_append_of_le_length hn.le]
      exact h.changes n c hc
    · rw [logged, List.take_left, h.replay]
      exact hne

theorem Recorded.keyed (h : t.Recorded) : t.Keyed := by
  intro p e he
  rw [get?, ← h.replay, RouteChange.get?_replay, Dict.get?_emptyCollection] at he
  cases hlast : RouteChange.last? p t.log with
  | none =>
    rw [hlast] at he
    cases he
  | some o =>
    obtain ⟨c, hc, htarget, hroute⟩ := RouteChange.mem_of_last? hlast
    rw [hlast, Option.map_some, Option.getD_some, Option.bind_fun_some] at he
    rw [h.targets c hc e (hroute.trans he), htarget]

/-! ## What each operation adds -/

theorem Recorded.set (h : t.Recorded) (r : Route) : (t.set r).2.Recorded := by
  unfold ForwardingTable.set
  split_ifs with hsame
  · exact h
  · exact h.add (some r) (fun _ hr => Option.some.inj hr ▸ rfl) hsame

theorem Recorded.withdraw (h : t.Recorded) (q : AddressPrefix) : (t.withdraw q).2.Recorded := by
  unfold ForwardingTable.withdraw
  split
  · exact h
  · rename_i r hr
    exact h.add none (fun _ hr => by cases hr) (by rw [hr]; exact Option.some_ne_none r)

theorem Recorded.withdrawAll (h : t.Recorded) (qs : List AddressPrefix) :
    (t.withdrawAll qs).Recorded := by
  unfold ForwardingTable.withdrawAll
  induction qs generalizing t with
  | nil => exact h
  | cons q qs ih => exact ih (h.withdraw q)

/-! ## Finding the routes to an account in some order -/

/-- Takes a prefix out of the routes and says so in the log, without a look at its route. -/
def strike (t : ForwardingTable) (target : AddressPrefix) : ForwardingTable :=
  { t with routes := t.routes.erase target, log := t.logged target none }

/-- Prefixes in the order of their texts. -/
def sorted (targets : List AddressPrefix) : List AddressPrefix :=
  targets.mergeSort fun p q => p.text ≤ q.text

/-- Takes away every route to an account, where the routes are found in some order: their prefixes
are sorted first. -/
def withdrawFound (t : ForwardingTable) (account : AccountId) (found : List Route) :
    List AddressPrefix × ForwardingTable :=
  let targets := sorted ((found.filter fun r => r.nextHop = account).map Route.target)
  (targets, targets.foldl strike t)

theorem targetsVia_pairwise (t : ForwardingTable) (a : AccountId) :
    (t.targetsVia a).Pairwise fun p q => p.text < q.text :=
  List.pairwise_map.mpr (t.routes.filter fun _ r => r.nextHop = a).sorted

theorem targetsVia_nodup (t : ForwardingTable) (a : AccountId) : (t.targetsVia a).Nodup :=
  (t.targetsVia_pairwise a).imp fun hlt heq => absurd (heq ▸ hlt) (lt_irrefl _)

/-- The prefixes under which the routes to an account are kept are those of the routes. -/
theorem targetsVia_eq_map (ht : t.Keyed) (a : AccountId) :
    t.targetsVia a = (t.routes.values.filter fun r => r.nextHop = a).map Route.target := by
  rw [targetsVia, Dict.keys, Dict.filter, Dict.values, List.filter_map, List.map_map]
  refine List.map_congr_left fun e he => ?_
  have hmem : (e.1, e.2) ∈ t.routes.entries := List.mem_of_mem_filter he
  exact (ht e.1 e.2 (Dict.mem_entries_iff.mp hmem)).symm

theorem sorted_found (ht : t.Keyed) {found : List Route} (h : found.Perm t.routes.values)
    (a : AccountId) :
    sorted ((found.filter fun r => r.nextHop = a).map Route.target) = t.targetsVia a := by
  have hperm : (sorted ((found.filter fun r => r.nextHop = a).map Route.target)).Perm
      (t.targetsVia a) := by
    rw [targetsVia_eq_map ht]
    exact (List.mergeSort_perm _ _).trans ((h.filter _).map _)
  have hsorted : (sorted ((found.filter fun r => r.nextHop = a).map Route.target)).Pairwise
      fun p q => p.text ≤ q.text := by
    refine (List.pairwise_mergeSort ?_ ?_ _).imp fun hle => of_decide_eq_true hle
    · intro p q r hpq hqr
      exact decide_eq_true (le_trans (of_decide_eq_true hpq) (of_decide_eq_true hqr))
    · intro p q
      rw [Bool.or_eq_true, decide_eq_true_eq, decide_eq_true_eq]
      exact le_total _ _
  refine hperm.eq_of_pairwise (fun p q _ _ hpq hqp => ?_) hsorted
    ((t.targetsVia_pairwise a).imp le_of_lt)
  exact TextKey.keyText_inj (le_antisymm hpq hqp)

theorem withdraw_of_get? {r : Route} (h : t.get? p = some r) : (t.withdraw p).2 = t.strike p := by
  unfold withdraw
  rw [h]
  rfl

/-- Prefixes that have routes are struck out as they are withdrawn. -/
theorem foldl_strike {qs : List AddressPrefix} (hqs : qs.Nodup)
    (h : ∀ q ∈ qs, ∃ r, t.get? q = some r) : qs.foldl strike t = t.withdrawAll qs := by
  unfold withdrawAll
  induction qs generalizing t with
  | nil => rfl
  | cons q qs ih =>
    rw [List.nodup_cons] at hqs
    rw [List.forall_mem_cons] at h
    obtain ⟨r, hr⟩ := h.1
    rw [List.foldl_cons, List.foldl_cons, withdraw_of_get? hr]
    refine ih hqs.2 fun q' hq' => ?_
    rw [← withdraw_of_get? hr, get?_withdraw, if_neg]
    · exact h.2 q' hq'
    · rintro rfl
      exact hqs.1 hq'

theorem length_lt_logged {route : Option Route} : t.log.length < (t.logged p route).length := by
  rw [logged, List.length_append]
  exact Nat.lt_succ_self _

theorem length_foldl_strike (t : ForwardingTable) (qs : List AddressPrefix) :
    (qs.foldl strike t).log.length = t.log.length + qs.length := by
  induction qs generalizing t with
  | nil => rfl
  | cons q qs ih =>
    rw [List.foldl_cons, ih, List.length_cons]
    change (t.logged q none).length + qs.length = _
    rw [logged, List.length_append, List.length_singleton, Nat.add_assoc, Nat.add_comm 1]

/-- Each prefix that has a route takes one epoch. -/
theorem length_withdrawAll {qs : List AddressPrefix} (hqs : qs.Nodup)
    (h : ∀ q ∈ qs, ∃ r, t.get? q = some r) :
    (t.withdrawAll qs).log.length = t.log.length + qs.length := by
  rw [← foldl_strike hqs h, length_foldl_strike]

/-- The order in which the routes to an account are found makes no difference. -/
theorem withdrawFound_eq (ht : t.Keyed) (a : AccountId) {found : List Route}
    (h : found.Perm t.routes.values) : t.withdrawFound a found = t.withdrawVia a := by
  unfold withdrawFound withdrawVia
  dsimp only
  rw [sorted_found ht h, foldl_strike (t.targetsVia_nodup a)]
  intro q hq
  obtain ⟨r, hr, -⟩ := (mem_targetsVia t).mp hq
  exact ⟨r, hr⟩

/-! ## Reading the log -/

theorem toNat_epoch (h : t.log.length < UInt32.size) : t.epoch.toNat = t.log.length := by
  rw [epoch, UInt32.toNat_ofNat']
  exact Nat.mod_eq_of_lt h

theorem length_changesFrom (t : ForwardingTable) (first max : UInt32) :
    (t.changesFrom first max).length = min max.toNat (t.log.length - first.toNat) := by
  rw [changesFrom, List.length_take, List.length_drop]

theorem getElem?_changesFrom (t : ForwardingTable) (first : UInt32) {max : UInt32} {i : ℕ}
    (hi : i < max.toNat) : (t.changesFrom first max)[i]? = t.log[first.toNat + i]? := by
  rw [changesFrom, List.getElem?_take_of_lt hi, List.getElem?_drop]

/-- Reads of these sizes, of which each starts where the one before has ended. -/
def readOn (t : ForwardingTable) : (first : UInt32) → (sizes : List UInt32) → List RouteChange
  | _, [] => []
  | first, max :: sizes =>
    let changes := t.changesFrom first max
    changes ++ t.readOn (first + .ofNat changes.length) sizes

/-- The most changes that reads of these sizes give. -/
def capacity : List UInt32 → ℕ
  | [] => 0
  | max :: sizes => max.toNat + capacity sizes

theorem readOn_eq (h : t.log.length < UInt32.size) {first : UInt32}
    (hfirst : first.toNat ≤ t.log.length) (sizes : List UInt32) :
    t.readOn first sizes = (t.log.drop first.toNat).take (capacity sizes) := by
  induction sizes generalizing first with
  | nil => rfl
  | cons max sizes ih =>
    have hlen := t.length_changesFrom first max
    have hnext : (first + .ofNat (t.changesFrom first max).length).toNat
        = first.toNat + min max.toNat (t.log.length - first.toNat) := by
      unfold UInt32.size at h
      rw [UInt32.toNat_add, UInt32.toNat_ofNat', hlen]
      omega
    rw [readOn, ih (by rw [hnext]; omega), hnext, changesFrom, capacity, List.take_add,
      List.drop_drop]
    congr 1
    -- a read that ends early has come to the end of the log
    rcases Nat.le_total max.toNat (t.log.length - first.toNat) with hmax | hmax
    · rw [Nat.min_eq_left hmax]
    · rw [Nat.min_eq_right hmax, List.drop_of_length_le (by omega),
        List.drop_of_length_le (by omega)]

theorem length_le_capacity {sizes : List UInt32} (h : ∀ m ∈ sizes, 0 < m) :
    sizes.length ≤ capacity sizes := by
  induction sizes with
  | nil => exact Nat.le_refl _
  | cons m sizes ih =>
    rw [List.forall_mem_cons] at h
    have hm : 0 < m.toNat := UInt32.lt_iff_toNat_lt.mp h.1
    have := ih h.2
    rw [List.length_cons, capacity]
    omega

end ForwardingTable

/-! ## Runs of operations -/

/-- An operation on a forwarding table. -/
inductive TableOperation where
  | set (r : Route)
  | withdraw (target : AddressPrefix)
  | withdrawVia (account : AccountId)
  | reset (id : TableId)

namespace TableOperation

variable {t : ForwardingTable}

/-- The table after an operation, and whether the operation reports a change. -/
def apply (t : ForwardingTable) : TableOperation → Bool × ForwardingTable
  | set r => t.set r
  | withdraw p => ((t.withdraw p).1.isSome, (t.withdraw p).2)
  | withdrawVia a => (!(t.withdrawVia a).1.isEmpty, (t.withdrawVia a).2)
  | reset id => (true, .fresh id)

/-- The table after operations, one after the other. -/
def run (os : List TableOperation) (t : ForwardingTable) : ForwardingTable :=
  os.foldl (fun t o => (o.apply t).2) t

theorem recorded_apply (h : t.Recorded) (o : TableOperation) : (o.apply t).2.Recorded := by
  cases o with
  | set r => exact h.set r
  | withdraw p => exact h.withdraw p
  | withdrawVia a => exact h.withdrawAll _
  | reset id => exact ForwardingTable.recorded_fresh id

theorem recorded_run (h : t.Recorded) (os : List TableOperation) : (run os t).Recorded := by
  unfold run
  induction os generalizing t with
  | nil => exact h
  | cons o os ih => exact ih (recorded_apply h o)

/-- What an operation that reports no change leaves is the very table. -/
theorem eq_of_apply_eq_false {o : TableOperation} (h : (o.apply t).1 = false) :
    (o.apply t).2 = t := by
  cases o with
  | set r =>
    change (t.set r).1 = false at h
    change (t.set r).2 = t
    unfold ForwardingTable.set at h ⊢
    split_ifs at h ⊢
    rfl
  | withdraw p =>
    unfold apply ForwardingTable.withdraw at h ⊢
    dsimp only at h ⊢
    split at h
    · rfl
    · cases h
  | withdrawVia a =>
    have hnone : t.targetsVia a = [] := by
      simpa [apply, ForwardingTable.withdrawVia] using h
    unfold apply ForwardingTable.withdrawVia
    dsimp only
    rw [hnone]
    rfl
  | reset id => cases h

/-- Apart from a reset, an operation that reports a change logs it. -/
theorem length_lt_of_apply_eq_true {o : TableOperation} (h : (o.apply t).1 = true)
    (ho : ∀ id, o ≠ .reset id) : t.log.length < (o.apply t).2.log.length := by
  cases o with
  | set r =>
    change (t.set r).1 = true at h
    change t.log.length < (t.set r).2.log.length
    unfold ForwardingTable.set at h ⊢
    split_ifs at h ⊢
    exact ForwardingTable.length_lt_logged
  | withdraw p =>
    unfold apply ForwardingTable.withdraw at h ⊢
    dsimp only at h ⊢
    split at h
    · cases h
    · exact ForwardingTable.length_lt_logged
  | withdrawVia a =>
    change (!(t.targetsVia a).isEmpty) = true at h
    change t.log.length < (t.withdrawAll (t.targetsVia a)).log.length
    have hlog := ForwardingTable.length_withdrawAll (t.targetsVia_nodup a)
      fun q hq => ((t.mem_targetsVia).mp hq).imp fun _ => And.left
    have hpos : 0 < (t.targetsVia a).length := by
      simpa [List.length_pos_iff] using h
    omega
  | reset id => exact absurd rfl (ho id)

/-- After any operations the log is the history of the table: it replays to the routes, which are
kept under their prefixes; its entries stand at their epochs, and each was a change.  An operation
that reports no change leaves the table as it is.  The order in which routes are found is not seen
in the log, and reads that follow each other give all of it. -/
theorem history_of_run (id : TableId) (os : List TableOperation)
    (h : (run os (.fresh id)).log.length < UInt32.size) :
    let t := run os (.fresh id)
    RouteChange.replay some ∅ t.log = t.routes ∧
    (∀ p r, t.get? p = some r → r.target = p) ∧
    (∀ (n : ℕ) (c : RouteChange), t.log[n]? = some c → c.epoch.toNat = n) ∧
    t.epoch.toNat = t.log.length ∧
    (∀ (n : ℕ) (c : RouteChange), t.log[n]? = some c →
      (RouteChange.replay some ∅ (t.log.take n)).get? c.target ≠ c.route) ∧
    (∀ o : TableOperation, (o.apply t).1 = false → (o.apply t).2 = t) ∧
    (∀ o : TableOperation, (∀ id', o ≠ .reset id') → (o.apply t).1 = true →
      t.log.length < (o.apply t).2.log.length) ∧
    (∀ (a : AccountId) (found : List Route), found.Perm t.routes.values →
      t.withdrawFound a found = t.withdrawVia a) ∧
    (∀ first max : UInt32,
      (t.changesFrom first max).length = min max.toNat (t.epoch.toNat - first.toNat) ∧
      ∀ i < max.toNat, (t.changesFrom first max)[i]? = t.log[first.toNat + i]?) ∧
    ∀ sizes : List UInt32, (∀ m ∈ sizes, 0 < m) →
      t.readOn 0 sizes = t.log.take (ForwardingTable.capacity sizes) ∧
      (t.log.length ≤ sizes.length → t.readOn 0 sizes = t.log) := by
  intro t
  have ht : t.Recorded := recorded_run (ForwardingTable.recorded_fresh id) os
  have hepoch : t.epoch.toNat = t.log.length := ForwardingTable.toNat_epoch h
  refine ⟨ht.replay, ht.keyed, fun n c hc => ?_, hepoch, ht.changes, fun o => eq_of_apply_eq_false,
    fun o ho hchange => length_lt_of_apply_eq_true hchange ho,
    fun a found hfound => ForwardingTable.withdrawFound_eq ht.keyed a hfound,
    fun first max => ⟨?_, fun i hi => t.getElem?_changesFrom first hi⟩, fun sizes hpos => ?_⟩
  · have hn : n < t.log.length := (List.getElem?_eq_some_iff.mp hc).1
    rw [ht.epochs n c hc, UInt32.toNat_ofNat']
    exact Nat.mod_eq_of_lt (hn.trans h)
  · rw [hepoch]
    exact t.length_changesFrom first max
  · have hread : t.readOn 0 sizes = t.log.take (ForwardingTable.capacity sizes) :=
      ForwardingTable.readOn_eq h (Nat.zero_le _) sizes
    refine ⟨hread, fun hlen => ?_⟩
    rw [hread, List.take_of_length_le (hlen.trans (ForwardingTable.length_le_capacity hpos))]

/-- After a reset two routes are set, one of them twice, and one is withdrawn: three changes. -/
theorem history_of_run_reset :
    ∃ (id : TableId) (os : List TableOperation), (run os (.fresh id)).log.length < UInt32.size ∧
      (run os (.fresh id)).log.length = 3 ∧
      RouteChange.replay some ∅ (run os (.fresh id)).log = (run os (.fresh id)).routes ∧
      (run os (.fresh id)).readOn 0 [2, 5, 1] = (run os (.fresh id)).log := by
  let far (o : UInt8) : Route :=
    ⟨⟨"test.far", by decide +kernel⟩, ⟨"alice", by decide +kernel⟩, Octets.replicate 32 o, []⟩
  let near : Route :=
    ⟨⟨"test.near", by decide +kernel⟩, ⟨"bob", by decide +kernel⟩, Octets.replicate 32 0, []⟩
  let os : List TableOperation := [.set (far 1), .set near, .reset ⟨Octets.replicate 16 7⟩,
    .set (far 2), .set (far 2), .set near, .withdrawVia near.nextHop, .withdraw near.target]
  let id : TableId := ⟨Octets.replicate 16 0⟩
  have hlength : (run os (.fresh id)).log.length = 3 := by decide +kernel
  have hsmall : (run os (.fresh id)).log.length < UInt32.size := by
    rw [hlength]
    decide
  obtain ⟨hreplay, -, -, -, -, -, -, -, -, hread⟩ := history_of_run id os hsmall
  have hpos : ∀ m ∈ ([2, 5, 1] : List UInt32), 0 < m := by simp
  exact ⟨id, os, hsmall, hlength, hreplay, (hread _ hpos).2 hlength.le⟩

end TableOperation

end IlpConnector
