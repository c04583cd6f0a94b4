/-!
# Dictionaries in the order of their keys

A dictionary holds at most one value under each key and lists them in the byte order of the keys'
texts, so that what it lists never depends on how it came about: two dictionaries with the same
values under the same keys are equal (`Dict.ext_get?`).

`get?_insert` and `get?_erase` say what the operations do to the values.
-/

namespace IlpConnector

/-- Keys are told apart and ordered by a text. -/
class TextKey (κ : Type) where
  keyText : κ → String
  keyText_inj : ∀ {a b : κ}, keyText a = keyText b → a = b

instance : TextKey String := ⟨id, id⟩

open TextKey (keyText keyText_inj)

/-- Values under keys, in the order of the keys. -/
structure Dict (κ ν : Type) [TextKey κ] where
  entries : List (κ × ν)
  sorted : entries.Pairwise fun a b => keyText a.1 < keyText b.1

namespace Dict

variable {κ ν : Type} [TextKey κ]

instance [DecidableEq κ] [DecidableEq ν] : DecidableEq (Dict κ ν) := fun a b =>
  decidable_of_iff (a.entries = b.entries) ⟨fun h => by cases a; cases b; simp_all, fun h => h ▸ rfl⟩

def empty : Dict κ ν := ⟨[], .nil⟩

instance : EmptyCollection (Dict κ ν) := ⟨empty⟩

instance : Inhabited (Dict κ ν) := ⟨empty⟩

/-- The value under a key. -/
def get? (d : Dict κ ν) (k : κ) : Option ν :=
  (d.entries.find? fun e => keyText e.1 == keyText k).map Prod.snd

def contains (d : Dict κ ν) (k : κ) : Bool :=
  (d.get? k).isSome

def keys (d : Dict κ ν) : List κ := d.entries.map Prod.fst

def values (d : Dict κ ν) : List ν := d.entries.map Prod.snd

def size (d : Dict κ ν) : Nat := d.entries.length

def isEmpty (d : Dict κ ν) : Bool := d.entries.isEmpty

/-- The dictionary with this value under the key, whatever was there. -/
def insert (d : Dict κ ν) (k : κ) (v : ν) : Dict κ ν where
  entries := d.entries.filter (fun e => keyText e.1 < keyText k)
    ++ (k, v) :: d.entries.filter (fun e => keyText k < keyText e.1)
  sorted := by
    refine List.pairwise_append.mpr ⟨d.sorted.filter _, ?_, ?_⟩
    · refine List.pairwise_cons.mpr ⟨fun e he => ?_, d.sorted.filter _⟩
      simpa using (List.mem_filter.mp he).2
    · intro a ha b hb
      have ha' : keyText a.1 < keyText k := by simpa using (List.mem_filter.mp ha).2
      rcases List.mem_cons.mp hb with rfl | hb
      · exact ha'
      · exact String.lt_trans ha' (by simpa using (List.mem_filter.mp hb).2)

/-- The dictionary without the key. -/
def erase (d : Dict κ ν) (k : κ) : Dict κ ν where
  entries := d.entries.filter fun e => keyText e.1 != keyText k
  sorted := d.sorted.filter _

/-- The entries that satisfy a test. -/
def filter (d : Dict κ ν) (p : κ → ν → Bool) : Dict κ ν where
  entries := d.entries.filter fun e => p e.1 e.2
  sorted := d.sorted.filter _

/-- The dictionary with another value under each key. -/
def mapValues {ν' : Type} (d : Dict κ ν) (f : κ → ν → ν') : Dict κ ν' where
  entries := d.entries.map fun e => (e.1, f e.1 e.2)
  sorted := by
    rw [List.pairwise_map]
    exact d.sorted

/-- Changes the value under a key, if there is one. -/
def modify (d : Dict κ ν) (k : κ) (f : ν → ν) : Dict κ ν :=
  d.mapValues fun k' v => if keyText k' = keyText k then f v else v

/-- Later values replace earlier ones under the same key. -/
def ofList (l : List (κ × ν)) : Dict κ ν :=
  l.foldl (fun d e => d.insert e.1 e.2) empty

@[simp] theorem get?_empty (k : κ) : (empty : Dict κ ν).get? k = none := rfl

/-- The entries of a dictionary are its values under its keys. -/
theorem mem_entries_iff {d : Dict κ ν} {k : κ} {v : ν} : (k, v) ∈ d.entries ↔ d.get? k = some v := by
  obtain ⟨l, hl⟩ := d
  simp only [get?]
  induction l with
  | nil => simp
  | cons e l ih =>
    rw [List.pairwise_cons] at hl
    obtain ⟨hhead, htail⟩ := hl
    rw [List.mem_cons, List.find?_cons]
    by_cases hk : keyText e.1 = keyText k
    · simp only [hk, BEq.rfl, Option.map_some, Option.some.injEq]
      have hek : e.1 = k := keyText_inj hk
      constructor
      · rintro (rfl | hmem)
        · rfl
        · have := hhead _ hmem
          rw [hk] at this
          exact absurd this (String.lt_irrefl _)
      · rintro rfl
        exact Or.inl (by rw [← hek])
    · have hne : (keyText e.1 == keyText k) = false := by simpa using hk
      simp only [hne]
      rw [← ih htail]
      constructor
      · rintro (rfl | hmem)
        · exact absurd rfl hk
        · exact hmem
      · exact Or.inr

@[grind =] theorem get?_insert (d : Dict κ ν) (k k' : κ) (v : ν) :
    (d.insert k v).get? k' = if keyText k = keyText k' then some v else d.get? k' := by
  apply Option.ext
  intro w
  rw [← mem_entries_iff]
  simp only [insert, List.mem_append, List.mem_filter, List.mem_cons, decide_eq_true_eq]
  by_cases hk : keyText k = keyText k'
  · have hkk : k = k' := keyText_inj hk
    subst hkk
    simp [eq_comm]
  · have hkk : k' ≠ k := fun h => hk (by rw [h])
    rw [if_neg hk, ← mem_entries_iff]
    constructor
    · rintro (⟨h, _⟩ | h | ⟨h, _⟩)
      · exact h
      · exact absurd (Prod.mk.injEq .. ▸ h).1 hkk
      · exact h
    · intro h
      rcases Std.lt_trichotomy (keyText k') (keyText k) with hlt | heq | hgt
      · exact Or.inl ⟨h, hlt⟩
      · exact absurd heq.symm hk
      · exact Or.inr (Or.inr ⟨h, hgt⟩)

@[grind =] theorem get?_erase (d : Dict κ ν) (k k' : κ) :
    (d.erase k).get? k' = if keyText k = keyText k' then none else d.get? k' := by
  apply Option.ext
  intro w
  rw [← mem_entries_iff]
  simp only [erase, List.mem_filter, bne_iff_ne, ne_eq]
  by_cases hk : keyText k = keyText k'
  · simp [hk]
  · rw [if_neg hk, ← mem_entries_iff]
    exact ⟨fun h => h.1, fun h => ⟨h, fun h' => hk h'.symm⟩⟩

theorem get?_filter (d : Dict κ ν) (p : κ → ν → Bool) (k : κ) :
    (d.filter p).get? k = (d.get? k).filter (p k) := by
  apply Option.ext
  intro w
  rw [← mem_entries_iff]
  simp only [filter, List.mem_filter, mem_entries_iff, Option.filter_eq_some_iff]

theorem get?_mapValues {ν' : Type} (d : Dict κ ν) (f : κ → ν → ν') (k : κ) :
    (d.mapValues f).get? k = (d.get? k).map (f k) := by
  apply Option.ext
  intro w
  rw [← mem_entries_iff]
  simp only [mapValues, List.mem_map, Prod.mk.injEq, Prod.exists, Option.map_eq_some_iff]
  constructor
  · rintro ⟨k', v, hmem, rfl, rfl⟩
    exact ⟨v, mem_entries_iff.mp hmem, rfl⟩
  · rintro ⟨v, hv, rfl⟩
    exact ⟨k, v, mem_entries_iff.mpr hv, rfl, rfl⟩

/-- A dictionary is determined by its values. -/
theorem ext_get? {d d' : Dict κ ν} (h : ∀ k, d.get? k = d'.get? k) : d = d' := by
  obtain ⟨l, hl⟩ := d
  obtain ⟨l', hl'⟩ := d'
  have hmem : ∀ e, e ∈ l ↔ e ∈ l' := by
    rintro ⟨k, v⟩
    have := h k
    rw [show ((k, v) ∈ l ↔ (⟨l, hl⟩ : Dict κ ν).get? k = some v) from mem_entries_iff (d := ⟨l, hl⟩),
      this]
    exact (mem_entries_iff (d := ⟨l', hl'⟩)).symm
  have hlist : l = l' := by
    clear h
    induction l generalizing l' with
    | nil =>
      cases l' with
      | nil => rfl
      | cons e l' => exact absurd ((hmem e).mpr List.mem_cons_self) (by simp)
    | cons e l ih =>
      cases l' with
      | nil => exact absurd ((hmem e).mp List.mem_cons_self) (by simp)
      | cons e' l' =>
        rw [List.pairwise_cons] at hl hl'
        have hee : e = e' := by
          rcases List.mem_cons.mp ((hmem e).mp List.mem_cons_self) with he | he
          · exact he
          · rcases List.mem_cons.mp ((hmem e').mpr List.mem_cons_self) with he' | he'
            · exact he'.symm
            · exact absurd (hl.1 _ he') (String.lt_asymm (hl'.1 _ he))
        subst hee
        rw [ih hl.2 l' hl'.2]
        intro x
        have hx := hmem x
        rw [List.mem_cons, List.mem_cons] at hx
        constructor
        · intro hxl
          rcases hx.mp (Or.inr hxl) with rfl | h
          · exact absurd (hl.1 _ hxl) (String.lt_irrefl _)
          · exact h
        · intro hxl
          rcases hx.mpr (Or.inr hxl) with rfl | h
          · exact absurd (hl'.1 _ hxl) (String.lt_irrefl _)
          · exact h
  subst hlist
  rfl

end Dict

end IlpConnector
