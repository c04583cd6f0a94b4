import IlpConnector.Proofs.PacketCodec
import IlpConnector.Proofs.Prefix

/-!
# Prefixes are ordered by the addresses that they match

One prefix covers another one just if it matches every address that the other one matches
(`AddressPrefix.covers_iff_forall_matches`).  A prefix of two segments is an address itself, and it
is enough to ask whether that one is matched.  A scheme alone is no address, and two addresses below
it that have nothing but the scheme in common stand for it.

A text is an address if it is a scheme with segments behind it, and not too long
(`Address.defect_eq_none_iff`).  So any text of segments can be put behind an address, as long as
there is room for it (`Address.exists_withSuffix_iff`).
-/

namespace IlpConnector

namespace Address

/-! ## Texts of segments -/

theorem isSegment_iff {s : List Char} :
    isSegment s = true ↔ s ≠ [] ∧ ∀ c ∈ s, isSegmentChar c = true := by
  simp [isSegment]

theorem dot_notMem_of_isSegment {s : List Char} (h : isSegment s = true) : '.' ∉ s :=
  fun hdot => absurd ((isSegment_iff.mp h).2 '.' hdot) (by decide)

theorem splitDots_intercalate {segments : List (List Char)} (h : ∀ s ∈ segments, '.' ∉ s)
    (hne : segments ≠ []) : splitDots (['.'].intercalate segments) = segments := by
  rw [splitDots_eq_splitOn, List.splitOn_intercalate '.' h hne]

/-- A text that is segments with dots between them. -/
def Dotted (s : String) : Prop :=
  ∃ segments : List (List Char), segments ≠ [] ∧
    (∀ t ∈ segments, t ≠ [] ∧ ∀ c ∈ t, isSegmentChar c = true) ∧
    s.toList = ['.'].intercalate segments

theorem dotted_iff {s : String} : Dotted s ↔ ∀ t ∈ splitDots s.toList, isSegment t = true := by
  constructor
  · rintro ⟨segments, hne, hvalid, hs⟩
    have hseg : ∀ t ∈ segments, isSegment t = true := fun t ht => isSegment_iff.mpr (hvalid t ht)
    rwa [hs, splitDots_intercalate (fun t ht => dot_notMem_of_isSegment (hseg t ht)) hne]
  · intro h
    exact ⟨splitDots s.toList, splitDots_ne_nil _, fun t ht => isSegment_iff.mp (h t ht),
      (intercalate_splitDots _).symm⟩

/-! ## What makes a text an address -/

theorem firstDefect_cons_eq_none_iff {scheme : List Char} {rest : List (List Char)} :
    firstDefect (scheme :: rest) = none ↔
      scheme ∈ schemes ∧ ∀ s ∈ rest, isSegment s = true := by
  unfold firstDefect
  dsimp only
  split_ifs with h
  · rw [Option.map_eq_none_iff, List.find?_eq_none]
    simpa using fun _ => by simpa using h
  · simpa using fun hs => absurd hs (by simpa using h)

theorem firstDefect_append_eq_none_iff {front rest : List (List Char)} (hne : front ≠ []) :
    firstDefect (front ++ rest) = none ↔
      firstDefect front = none ∧ ∀ s ∈ rest, isSegment s = true := by
  cases front with
  | nil => exact absurd rfl hne
  | cons scheme front =>
    rw [List.cons_append, firstDefect_cons_eq_none_iff, firstDefect_cons_eq_none_iff,
      List.forall_mem_append, and_assoc]

theorem defect_eq_none_iff {n : ℕ} {s : String} : defect n s = none ↔
    s.utf8ByteSize ≤ maxLength ∧ firstDefect (splitDots s.toList) = none ∧
      n ≤ (splitDots s.toList).length := by
  unfold defect
  by_cases hsize : maxLength < s.utf8ByteSize
  · simp [hsize, Nat.not_le.mpr hsize]
  · rw [if_neg hsize]
    cases firstDefect (splitDots s.toList) with
    | some e => simp
    | none => simp [Nat.not_lt.mp hsize]

theorem exists_ofText_iff {s : String} : (∃ a, ofText s = .ok a) ↔ defect 2 s = none := by
  constructor
  · rintro ⟨a, ha⟩
    rw [← text_of_ofText ha]
    exact a.valid
  · intro h
    exact ⟨⟨s, h⟩, ofText_text ⟨s, h⟩⟩

/-! ## Longer addresses -/

variable {a r : Address} {q : AddressPrefix} {s : String}

theorem toList_append_dot (front s : String) :
    (front ++ "." ++ s).toList = front.toList ++ '.' :: s.toList := by simp

/-- Below a prefix there are the addresses that go on with segments and are not too long. -/
theorem defect_append_dot_eq_none_iff : defect 2 (q.text ++ "." ++ s) = none ↔
    Dotted s ∧ q.text.utf8ByteSize + 1 + s.utf8ByteSize ≤ maxLength := by
  obtain ⟨-, hdefect, hone⟩ := defect_eq_none_iff.mp q.valid
  have hsize : (q.text ++ "." ++ s).utf8ByteSize = q.text.utf8ByteSize + 1 + s.utf8ByteSize := by
    rw [String.utf8ByteSize_append, String.utf8ByteSize_append]
    rfl
  have hmore : 1 ≤ (splitDots s.toList).length := List.length_pos_of_ne_nil (splitDots_ne_nil _)
  rw [defect_eq_none_iff, hsize, toList_append_dot, splitDots_append_dot,
    firstDefect_append_eq_none_iff (splitDots_ne_nil _), List.length_append, dotted_iff]
  constructor
  · rintro ⟨hle, ⟨-, hs⟩, -⟩
    exact ⟨hs, hle⟩
  · rintro ⟨hs, hle⟩
    exact ⟨hle, ⟨hdefect, hs⟩, by omega⟩

/-- Segments can be put at the end of an address just if the whole is not too long. -/
theorem exists_withSuffix_iff : (∃ r, a.withSuffix s = .ok r) ↔
    Dotted s ∧ a.text.utf8ByteSize + 1 + s.utf8ByteSize ≤ maxLength := by
  rw [show a.withSuffix s = ofText (a.toPrefix.text ++ "." ++ s) from rfl, exists_ofText_iff]
  exact defect_append_dot_eq_none_iff

theorem splitDots_withSuffix (h : a.withSuffix s = .ok r) :
    splitDots r.chars = splitDots a.chars ++ splitDots s.toList := by
  rw [chars, text_of_ofText h, toList_append_dot, splitDots_append_dot]
  rfl

/-- A longer address lies under the shorter one, and not the other way round. -/
theorem covers_of_withSuffix (h : a.withSuffix s = .ok r) :
    a.toPrefix.Covers r.toPrefix ∧ ¬ r.toPrefix.Covers a.toPrefix := by
  have hsplit : splitDots r.toPrefix.chars = splitDots a.toPrefix.chars ++ splitDots s.toList :=
    splitDots_withSuffix h
  rw [AddressPrefix.covers_iff, AddressPrefix.covers_iff, hsplit]
  refine ⟨List.prefix_append _ _, fun hprefix => splitDots_ne_nil s.toList ?_⟩
  have hle := hprefix.length_le
  rw [List.length_append] at hle
  exact List.length_eq_zero_iff.mp (by omega)

end Address

namespace AddressPrefix

open Address

variable {p q r : AddressPrefix} {a : Address}

/-! ## Addresses below a prefix -/

/-- A prefix with two segments is an address. -/
theorem exists_toPrefix_eq (h : 2 ≤ q.depth) : ∃ a : Address, a.toPrefix = q := by
  obtain ⟨hsize, hdefect, -⟩ := defect_eq_none_iff.mp q.valid
  exact ⟨⟨q.text, defect_eq_none_iff.mpr ⟨hsize, hdefect, h⟩⟩, rfl⟩

theorem depth_pos (q : AddressPrefix) : 0 < q.depth :=
  List.length_pos_of_ne_nil (splitDots_ne_nil _)

theorem utf8ByteSize_of_mem_schemes :
    ∀ scheme ∈ schemes, (String.ofList scheme).utf8ByteSize ≤ 7 := by decide

/-- No scheme is so long that no segment fits behind it. -/
theorem utf8ByteSize_of_depth_eq_one (h : q.depth = 1) : q.text.utf8ByteSize ≤ 7 := by
  obtain ⟨-, hdefect, -⟩ := defect_eq_none_iff.mp q.valid
  obtain ⟨scheme, hscheme⟩ := List.length_eq_one_iff.mp h
  have hchars : q.text.toList = scheme := by
    rw [← intercalate_splitDots q.text.toList, show splitDots q.text.toList = [scheme] from hscheme,
      List.intercalate_singleton]
  rw [show splitDots q.text.toList = [scheme] from hscheme, firstDefect_cons_eq_none_iff] at hdefect
  rw [← String.ofList_toList (s := q.text), hchars]
  exact utf8ByteSize_of_mem_schemes scheme hdefect.1

/-- Below a scheme there is an address with any one character after the dot. -/
theorem exists_address_of_depth_eq_one (h : q.depth = 1) {c : Char} (hc : isSegmentChar c = true)
    (hsize : c.utf8Size = 1) :
    ∃ a : Address, splitDots a.chars = splitDots q.chars ++ [[c]] := by
  have hsegment : isSegment [c] = true :=
    isSegment_iff.mpr ⟨List.cons_ne_nil c [], by simpa using hc⟩
  have hdot : ∀ s ∈ [[c]], '.' ∉ s := by simpa using dot_notMem_of_isSegment hsegment
  have hvalid : defect 2 (q.text ++ "." ++ String.singleton c) = none := by
    refine defect_append_dot_eq_none_iff.mpr ⟨⟨[[c]], by simp, by simp [hc], by simp⟩, ?_⟩
    have hle := utf8ByteSize_of_depth_eq_one h
    rw [String.utf8ByteSize_singleton, hsize, maxLength]
    omega
  refine ⟨⟨_, hvalid⟩, ?_⟩
  have hsplit : splitDots [c] = [[c]] := splitDots_intercalate hdot (by simp)
  rw [Address.chars, toList_append_dot, splitDots_append_dot, String.toList_singleton, hsplit]
  rfl

/-! ## The order -/

theorem Covers.refl (p : AddressPrefix) : p.Covers p := covers_iff.mpr List.prefix_rfl

theorem Covers.trans (h : p.Covers q) (h' : q.Covers r) : p.Covers r :=
  covers_iff.mpr ((covers_iff.mp h).trans (covers_iff.mp h'))

theorem Covers.matches (h : p.Covers q) (ha : q.Matches a) : p.Matches a :=
  matches_iff.mpr ((covers_iff.mp h).trans (matches_iff.mp ha))

/-- Of two prefixes that match one address, one lies under the other. -/
theorem covers_or_covers_of_matches (hp : p.Matches a) (hq : q.Matches a) :
    p.Covers q ∨ q.Covers p :=
  (Nat.le_total p.depth q.depth).imp (covers_of_matches hp hq) (covers_of_matches hq hp)

/-- One prefix covers another one just if it matches all the addresses that the other one
matches. -/
theorem covers_iff_forall_matches : p.Covers q ↔ ∀ a : Address, q.Matches a → p.Matches a := by
  refine ⟨fun h a ha => h.matches ha, fun h => ?_⟩
  rcases Nat.lt_or_ge q.depth 2 with hlt | hge
  · have hone : q.depth = 1 := Nat.le_antisymm (Nat.le_of_lt_succ hlt) q.depth_pos
    obtain ⟨a, ha⟩ := exists_address_of_depth_eq_one hone (c := 'a') (by decide) (by decide)
    obtain ⟨b, hb⟩ := exists_address_of_depth_eq_one hone (c := 'b') (by decide) (by decide)
    have hpa := matches_iff.mp (h a (matches_iff.mpr (ha ▸ List.prefix_append _ _)))
    have hpb := matches_iff.mp (h b (matches_iff.mpr (hb ▸ List.prefix_append _ _)))
    rw [ha, List.prefix_concat_iff] at hpa
    rw [hb, List.prefix_concat_iff] at hpb
    -- the two share no more than the scheme
    rcases hpa with hpa | hpa
    · rcases hpb with hpb | hpb
      · simp [hpa] at hpb
      · exact covers_iff.mpr hpb
    · exact covers_iff.mpr hpa
  · obtain ⟨a, rfl⟩ := exists_toPrefix_eq hge
    exact h a (Covers.refl a.toPrefix)

/-- Covering is inclusion of the addresses that are matched, and it orders the prefixes: those that
match one address are comparable, and of different depths if they are not equal.  An address that is
made longer lies strictly under the one it was, and one is made longer by any segments that leave it
short enough. -/
theorem covers_order :
    (∀ p q : AddressPrefix, p.Covers q ↔ ∀ a : Address, q.Matches a → p.Matches a) ∧
    (∀ p : AddressPrefix, p.Covers p) ∧
    (∀ p q r : AddressPrefix, p.Covers q → q.Covers r → p.Covers r) ∧
    (∀ p q : AddressPrefix, p.Covers q → q.Covers p → p = q) ∧
    (∀ (p q : AddressPrefix) (a : Address), p.Matches a → q.Matches a →
      (p.Covers q ∨ q.Covers p) ∧ (p.depth = q.depth → p = q)) ∧
    ∀ (a : Address) (s : String),
      (∀ r, a.withSuffix s = .ok r → r.text = a.text ++ "." ++ s ∧
        a.toPrefix.Covers r.toPrefix ∧ ¬ r.toPrefix.Covers a.toPrefix) ∧
      ((∃ r, a.withSuffix s = .ok r) ↔
        Dotted s ∧ a.text.utf8ByteSize + 1 + s.utf8ByteSize ≤ 1023) :=
  ⟨fun _ _ => covers_iff_forall_matches, Covers.refl, fun _ _ _ => Covers.trans,
    fun _ _ => Covers.antisymm,
    fun _ _ _ hp hq => ⟨covers_or_covers_of_matches hp hq, eq_of_matches hp hq⟩,
    fun _ _ => ⟨fun _ h => ⟨text_of_ofText h, covers_of_withSuffix h⟩, exists_withSuffix_iff⟩⟩

/-- An address between a scheme and the address that it is made longer to. -/
theorem covers_order_alice :
    let test : AddressPrefix := ⟨"test", by decide +kernel⟩
    let alice : Address := ⟨"test.alice", by decide +kernel⟩
    let paul : Address := ⟨"test.alice.paul", by decide +kernel⟩
    alice.withSuffix "paul" = .ok paul ∧ test.Matches paul ∧ alice.toPrefix.Matches paul ∧
      test.Covers alice.toPrefix ∧ alice.toPrefix.Covers paul.toPrefix ∧
      ¬ paul.toPrefix.Covers alice.toPrefix ∧ test.depth ≠ alice.toPrefix.depth := by
  intro test alice paul
  have hsuffix : alice.withSuffix "paul" = .ok paul := by decide +kernel
  have htest : test.Matches paul := by decide +kernel
  have halice : alice.toPrefix.Matches paul := by decide +kernel
  have hne : ¬ alice.toPrefix.Covers test := by decide +kernel
  obtain ⟨-, hrefl, -, -, hcommon, hlonger⟩ := covers_order
  obtain ⟨hor, hdepth⟩ := hcommon test alice.toPrefix paul htest halice
  obtain ⟨-, hcovers, hstrict⟩ := (hlonger alice "paul").1 paul hsuffix
  exact ⟨hsuffix, htest, halice, hor.resolve_right hne, hcovers, hstrict,
    fun h => hne (hdepth h ▸ hrefl test)⟩

end AddressPrefix

end IlpConnector
