import IlpConnector.Dict
import Mathlib.Tactic.Common

/-!
# What a dictionary holds

Which keys and which values a dictionary holds (`Dict.mem_keys`, `Dict.mem_values`), and what
inserting and erasing do to the value under a key, in terms of the keys themselves and not of their
texts.
-/

namespace IlpConnector

open TextKey (keyText keyText_inj)

theorem keyText_eq_iff {κ : Type} [TextKey κ] {a b : κ} : keyText a = keyText b ↔ a = b :=
  ⟨keyText_inj, fun h => h ▸ rfl⟩

namespace Dict

variable {κ ν : Type} [TextKey κ]

@[simp] theorem get?_emptyCollection (k : κ) : (∅ : Dict κ ν).get? k = none := rfl

@[simp] theorem get?_insert_self (d : Dict κ ν) (k : κ) (v : ν) :
    (d.insert k v).get? k = some v := by
  rw [get?_insert, if_pos rfl]

theorem get?_insert_of_ne (d : Dict κ ν) {k k' : κ} (v : ν) (h : k ≠ k') :
    (d.insert k v).get? k' = d.get? k' := by
  rw [get?_insert, if_neg (fun hk => h (keyText_inj hk))]

@[simp] theorem get?_erase_self (d : Dict κ ν) (k : κ) : (d.erase k).get? k = none := by
  rw [get?_erase, if_pos rfl]

theorem get?_erase_of_ne (d : Dict κ ν) {k k' : κ} (h : k ≠ k') :
    (d.erase k).get? k' = d.get? k' := by
  rw [get?_erase, if_neg (fun hk => h (keyText_inj hk))]

theorem mem_keys {d : Dict κ ν} {k : κ} : k ∈ d.keys ↔ ∃ v, d.get? k = some v := by
  simp only [keys, List.mem_map, Prod.exists, exists_and_right, exists_eq_right, mem_entries_iff]

theorem mem_values {d : Dict κ ν} {v : ν} : v ∈ d.values ↔ ∃ k, d.get? k = some v := by
  simp only [values, List.mem_map, Prod.exists, exists_eq_right, mem_entries_iff]

theorem contains_iff {d : Dict κ ν} {k : κ} : d.contains k = true ↔ ∃ v, d.get? k = some v :=
  Option.isSome_iff_exists

theorem contains_insert_self (d : Dict κ ν) (k : κ) (v : ν) : (d.insert k v).contains k = true := by
  rw [contains, get?_insert_self, Option.isSome_some]

theorem contains_insert_of_ne (d : Dict κ ν) {k k' : κ} (v : ν) (h : k ≠ k') :
    (d.insert k v).contains k' = d.contains k' := by
  rw [contains, get?_insert_of_ne d v h, contains]

/-- Another value under a key that is held changes no key. -/
theorem contains_insert_of_get? {d : Dict κ ν} {k : κ} {w : ν} (h : d.get? k = some w) (v : ν)
    (k' : κ) : (d.insert k v).contains k' = d.contains k' := by
  by_cases hk : k = k'
  · rw [← hk, contains_insert_self, contains, h, Option.isSome_some]
  · exact contains_insert_of_ne d v hk

theorem contains_erase_self (d : Dict κ ν) (k : κ) : (d.erase k).contains k = false := by
  rw [contains, get?_erase_self, Option.isSome_none]

theorem contains_erase_of_ne (d : Dict κ ν) {k k' : κ} (h : k ≠ k') :
    (d.erase k).contains k' = d.contains k' := by
  rw [contains, get?_erase_of_ne d h, contains]

/-- Erasing a key that is not held changes nothing. -/
theorem erase_of_get?_eq_none {d : Dict κ ν} {k : κ} (h : d.get? k = none) : d.erase k = d := by
  refine ext_get? fun k' => ?_
  by_cases hk : k = k'
  · rw [← hk, get?_erase_self, h]
  · exact get?_erase_of_ne d hk

/-- Giving a key the value that it has changes nothing. -/
theorem insert_of_get?_eq_some {d : Dict κ ν} {k : κ} {v : ν} (h : d.get? k = some v) :
    d.insert k v = d := by
  refine ext_get? fun k' => ?_
  by_cases hk : k = k'
  · rw [← hk, get?_insert_self, h]
  · exact get?_insert_of_ne d v hk

/-- The keys of a dictionary made from a list are those of the list. -/
theorem mem_keys_ofList {l : List (κ × ν)} {k : κ} : k ∈ (ofList l).keys ↔ k ∈ l.map Prod.fst := by
  have hfold : ∀ (l : List (κ × ν)) (d : Dict κ ν),
      k ∈ (l.foldl (fun d e => d.insert e.1 e.2) d).keys ↔ k ∈ d.keys ∨ k ∈ l.map Prod.fst := by
    intro l
    induction l with
    | nil => simp
    | cons e l ih =>
      intro d
      rw [List.foldl_cons, ih, List.map_cons, List.mem_cons, ← or_assoc, mem_keys, mem_keys]
      refine or_congr_left ?_
      by_cases hk : e.1 = k
      · subst hk
        simp
      · rw [get?_insert_of_ne _ _ hk]
        simp [Ne.symm hk]
  rw [ofList, hfold]
  simp [empty, keys]

/-! ## Erasing and inserting one after the other -/

theorem get?_foldl_erase [DecidableEq κ] (ks : List κ) (d : Dict κ ν) {k : κ} :
    (ks.foldl erase d).get? k = if k ∈ ks then none else d.get? k := by
  induction ks generalizing d with
  | nil => rfl
  | cons k' ks ih =>
    rw [List.foldl_cons, ih]
    by_cases hk : k' = k
    · subst hk
      simp
    · rw [get?_erase_of_ne _ hk]
      simp [Ne.symm hk]

variable {α : Type} {key : α → κ} {value : α → ν} {as : List α} {k : κ}

theorem get?_foldl_insert_of_ne (h : ∀ a ∈ as, key a ≠ k) (d : Dict κ ν) :
    (as.foldl (fun d a => d.insert (key a) (value a)) d).get? k = d.get? k := by
  induction as generalizing d with
  | nil => rfl
  | cons a as ih =>
    rw [List.forall_mem_cons] at h
    rw [List.foldl_cons, ih h.2, get?_insert_of_ne _ _ h.1]

/-- A key gets the value that all items for it have. -/
theorem get?_foldl_insert_of_mem {v : ν} (h : ∀ a ∈ as, key a = k → value a = v) {a : α}
    (ha : a ∈ as) (hk : key a = k) (d : Dict κ ν) :
    (as.foldl (fun d a => d.insert (key a) (value a)) d).get? k = some v := by
  induction as generalizing d a with
  | nil => cases ha
  | cons b as ih =>
    rw [List.forall_mem_cons] at h
    rw [List.foldl_cons]
    by_cases hlater : ∃ a ∈ as, key a = k
    · obtain ⟨a', ha', hk'⟩ := hlater
      exact ih h.2 ha' hk' _
    · have hnone : ∀ a ∈ as, key a ≠ k := fun a ha hk => hlater ⟨a, ha, hk⟩
      rcases List.mem_cons.mp ha with rfl | ha
      · rw [get?_foldl_insert_of_ne hnone, hk, get?_insert_self, h.1 hk]
      · exact absurd hk (hnone a ha)

end Dict

end IlpConnector
