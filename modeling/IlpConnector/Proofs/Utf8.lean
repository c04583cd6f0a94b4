import IlpConnector.Bytes.Utf8
import Mathlib.Tactic.Common

/-!
# Text and its octets

What is encoded is read back: the octets of a character are read as that character, whatever follows
(`Utf8.head_utf8EncodeChar`), and so the octets of a text as that text (`Utf8.decode_encode`).  No
other octets are read as that character (`Utf8.append_of_head`), nor as that text
(`Utf8.encode_of_decode`).
-/

namespace IlpConnector.Utf8

/-! ## One character -/

section Head

variable {o b c d : UInt8} (rest : Bytes)

theorem isContinuation_iff : isContinuation o = true ↔ 128 ≤ o.toNat ∧ o.toNat ≤ 191 := by
  simp only [isContinuation, Bool.and_eq_true, decide_eq_true_eq, UInt8.le_iff_toNat_le,
    UInt8.reduceToNat]

/-- The second octet of a character is a continuation, in a narrower range after four first
octets. -/
theorem isSecond_of_range (hb : 128 ≤ b.toNat ∧ b.toNat ≤ 191)
    (hE0 : o.toNat = 224 → 160 ≤ b.toNat) (hED : o.toNat = 237 → b.toNat ≤ 159)
    (hF0 : o.toNat = 240 → 144 ≤ b.toNat) (hF4 : o.toNat = 244 → b.toNat ≤ 143) :
    isSecond o b = true := by
  unfold isSecond isContinuation
  simp only [← UInt8.toNat_inj, UInt8.le_iff_toNat_le, UInt8.reduceToNat]
  split_ifs with h₁ h₂ h₃ h₄ <;> simp only [Bool.and_eq_true, decide_eq_true_eq] <;> omega

theorem lt_0x80_iff : o < 0x80 ↔ o.toNat < 128 := UInt8.lt_iff_toNat_lt

theorem head_one (ho : o.toNat < 128) : head o rest = .char (Char.ofNat o.toNat) rest := by
  unfold head
  rw [if_pos (lt_0x80_iff.mpr ho)]

theorem head_two (ho : 194 ≤ o.toNat ∧ o.toNat ≤ 223) (hb : isSecond o b = true) :
    head o (b :: rest) = .char (Char.ofNat (o.toNat % 32 * 64 + payload b)) rest := by
  have hfollowers : followers o = some 1 := by
    simp only [followers, UInt8.le_iff_toNat_le, UInt8.reduceToNat]
    rw [if_pos ho]
  unfold head
  rw [if_neg (by rw [lt_0x80_iff]; omega), hfollowers]
  simp only [hb, if_true]

theorem head_three (ho : 224 ≤ o.toNat ∧ o.toNat ≤ 239) (hb : isSecond o b = true)
    (hc : isContinuation c = true) :
    head o (b :: c :: rest)
      = .char (Char.ofNat (o.toNat % 16 * 4096 + payload b * 64 + payload c)) rest := by
  have hfollowers : followers o = some 2 := by
    simp only [followers, UInt8.le_iff_toNat_le, UInt8.reduceToNat]
    rw [if_neg (by omega), if_pos ho]
  unfold head
  rw [if_neg (by rw [lt_0x80_iff]; omega), hfollowers]
  simp only [hb, hc, if_true]

theorem head_four (ho : 240 ≤ o.toNat ∧ o.toNat ≤ 244) (hb : isSecond o b = true)
    (hc : isContinuation c = true) (hd : isContinuation d = true) :
    head o (b :: c :: d :: rest) = .char (Char.ofNat (o.toNat % 8 * 262144 + payload b * 4096
      + payload c * 64 + payload d)) rest := by
  have hfollowers : followers o = some 3 := by
    simp only [followers, UInt8.le_iff_toNat_le, UInt8.reduceToNat]
    rw [if_neg (by omega), if_neg (by omega), if_pos ho]
  unfold head
  rw [if_neg (by rw [lt_0x80_iff]; omega), hfollowers]
  simp only [hb, hc, hd, if_true]

theorem toNat_ofNat {n : Nat} (h : n < 256) : (UInt8.ofNat n).toNat = n := by
  rw [UInt8.toNat_ofNat', Nat.mod_eq_of_lt h]

/-- The octets of a character are read as that character, whatever follows. -/
theorem head_utf8EncodeChar (c : Char) :
    ∃ o tail, String.utf8EncodeChar c = o :: tail ∧ head o (tail ++ rest) = .char c rest := by
  have hvalid : c.toNat < 0xD800 ∨ 0xDFFF < c.toNat ∧ c.toNat < 0x110000 := c.valid
  have hchar : ∀ {n}, n = c.toNat → Head.char (Char.ofNat n) rest = .char c rest := by
    rintro _ rfl
    rw [Char.ofNat_toNat]
  unfold String.utf8EncodeChar
  dsimp only
  rw [show c.val.toNat = c.toNat from rfl]
  split_ifs with h₁ h₂ h₃
  · refine ⟨_, _, rfl, (head_one _ ?_).trans (hchar ?_)⟩ <;> rw [toNat_ofNat] <;> omega
  · have ho := toNat_ofNat (n := c.toNat / 64 % 32 + 192) (by omega)
    have hb := toNat_ofNat (n := c.toNat % 64 + 128) (by omega)
    refine ⟨_, _, rfl, (head_two _ ?_ (isSecond_of_range ?_ ?_ ?_ ?_ ?_)).trans (hchar ?_)⟩ <;>
      simp only [payload, ho, hb] <;> omega
  · have ho := toNat_ofNat (n := c.toNat / 4096 % 16 + 224) (by omega)
    have hb := toNat_ofNat (n := c.toNat / 64 % 64 + 128) (by omega)
    have hc := toNat_ofNat (n := c.toNat % 64 + 128) (by omega)
    refine ⟨_, _, rfl, (head_three _ ?_ (isSecond_of_range ?_ ?_ ?_ ?_ ?_)
      (isContinuation_iff.mpr ?_)).trans (hchar ?_)⟩ <;>
      simp only [payload, ho, hb, hc] <;> omega
  · have ho := toNat_ofNat (n := c.toNat / 262144 % 8 + 240) (by omega)
    have hb := toNat_ofNat (n := c.toNat / 4096 % 64 + 128) (by omega)
    have hc := toNat_ofNat (n := c.toNat / 64 % 64 + 128) (by omega)
    have hd := toNat_ofNat (n := c.toNat % 64 + 128) (by omega)
    refine ⟨_, _, rfl, (head_four _ ?_ (isSecond_of_range ?_ ?_ ?_ ?_ ?_)
      (isContinuation_iff.mpr ?_) (isContinuation_iff.mpr ?_)).trans (hchar ?_)⟩ <;>
      simp only [payload, ho, hb, hc, hd] <;> omega

/-! ## One form of a character -/

theorem range_of_isSecond (h : isSecond o b = true) : (128 ≤ b.toNat ∧ b.toNat ≤ 191) ∧
    (o.toNat = 224 → 160 ≤ b.toNat) ∧ (o.toNat = 237 → b.toNat ≤ 159) ∧
    (o.toNat = 240 → 144 ≤ b.toNat) ∧ (o.toNat = 244 → b.toNat ≤ 143) := by
  unfold isSecond isContinuation at h
  simp only [← UInt8.toNat_inj, UInt8.le_iff_toNat_le, UInt8.reduceToNat] at h
  split_ifs at h with h₁ h₂ h₃ h₄ <;>
    simp only [Bool.and_eq_true, decide_eq_true_eq] at h <;> omega

theorem followers_cases (o : UInt8) :
    (followers o = some 1 ∧ 194 ≤ o.toNat ∧ o.toNat ≤ 223) ∨
    (followers o = some 2 ∧ 224 ≤ o.toNat ∧ o.toNat ≤ 239) ∨
    (followers o = some 3 ∧ 240 ≤ o.toNat ∧ o.toNat ≤ 244) ∨ followers o = none := by
  simp only [followers, UInt8.le_iff_toNat_le, UInt8.reduceToNat]
  split_ifs <;> simp [*]

theorem val_ofNat {n : Nat} (h : n.isValidChar) : (Char.ofNat n).val.toNat = n := by
  unfold Char.ofNat
  rw [dif_pos h]
  rfl

theorem ofNat_of_eq {n : Nat} (h : n = o.toNat) : UInt8.ofNat n = o := by
  rw [h, UInt8.ofNat_toNat]

theorem utf8EncodeChar_one (ho : o.toNat < 128) :
    String.utf8EncodeChar (Char.ofNat o.toNat) = [o] := by
  have hval := val_ofNat (n := o.toNat) (Or.inl (by omega))
  unfold String.utf8EncodeChar
  dsimp only
  rw [hval, if_pos (by omega), UInt8.ofNat_toNat]

theorem utf8EncodeChar_two (ho : 194 ≤ o.toNat ∧ o.toNat ≤ 223) (hb : isSecond o b = true) :
    String.utf8EncodeChar (Char.ofNat (o.toNat % 32 * 64 + payload b)) = [o, b] := by
  obtain ⟨hb, -⟩ := range_of_isSecond hb
  unfold payload
  have hval := val_ofNat (n := o.toNat % 32 * 64 + b.toNat % 64) (Or.inl (by omega))
  unfold String.utf8EncodeChar
  dsimp only
  rw [hval, if_neg (by omega), if_pos (by omega), ofNat_of_eq (o := o) (by omega),
    ofNat_of_eq (o := b) (by omega)]

theorem utf8EncodeChar_three (ho : 224 ≤ o.toNat ∧ o.toNat ≤ 239) (hb : isSecond o b = true)
    (hc : isContinuation c = true) : String.utf8EncodeChar
      (Char.ofNat (o.toNat % 16 * 4096 + payload b * 64 + payload c)) = [o, b, c] := by
  obtain ⟨hb, hE0, hED, -⟩ := range_of_isSecond hb
  rw [isContinuation_iff] at hc
  unfold payload
  have hval := val_ofNat (n := o.toNat % 16 * 4096 + b.toNat % 64 * 64 + c.toNat % 64)
    (by unfold Nat.isValidChar; omega)
  unfold String.utf8EncodeChar
  dsimp only
  rw [hval, if_neg (by omega), if_neg (by omega), if_pos (by omega),
    ofNat_of_eq (o := o) (by omega), ofNat_of_eq (o := b) (by omega),
    ofNat_of_eq (o := c) (by omega)]

theorem utf8EncodeChar_four (ho : 240 ≤ o.toNat ∧ o.toNat ≤ 244) (hb : isSecond o b = true)
    (hc : isContinuation c = true) (hd : isContinuation d = true) : String.utf8EncodeChar
      (Char.ofNat (o.toNat % 8 * 262144 + payload b * 4096 + payload c * 64 + payload d))
        = [o, b, c, d] := by
  obtain ⟨hb, -, -, hF0, hF4⟩ := range_of_isSecond hb
  rw [isContinuation_iff] at hc hd
  unfold payload
  have hval := val_ofNat
    (n := o.toNat % 8 * 262144 + b.toNat % 64 * 4096 + c.toNat % 64 * 64 + d.toNat % 64)
    (by unfold Nat.isValidChar; omega)
  unfold String.utf8EncodeChar
  dsimp only
  rw [hval, if_neg (by omega), if_neg (by omega), if_neg (by omega),
    ofNat_of_eq (o := o) (by omega), ofNat_of_eq (o := b) (by omega),
    ofNat_of_eq (o := c) (by omega), ofNat_of_eq (o := d) (by omega)]

/-- The octets that are read as a character are those of the character, before the rest. -/
theorem append_of_head {rest r : Bytes} {ch : Char} (h : head o rest = .char ch r) :
    String.utf8EncodeChar ch ++ r = o :: rest := by
  unfold head at h
  split_ifs at h with ho
  · obtain ⟨rfl, rfl⟩ := Head.char.inj h
    rw [utf8EncodeChar_one (lt_0x80_iff.mp ho)]
    rfl
  · -- The first octet tells how many octets follow it.
    obtain ⟨hf, hr⟩ | ⟨hf, hr⟩ | ⟨hf, hr⟩ | hf := followers_cases o <;> simp only [hf] at h
    · split at h
      · cases h
      · split_ifs at h with hb
        obtain ⟨rfl, rfl⟩ := Head.char.inj h
        rw [utf8EncodeChar_two hr hb]
        rfl
    · split at h
      · cases h
      · split_ifs at h with hb
        split at h
        · cases h
        · split_ifs at h with hc
          obtain ⟨rfl, rfl⟩ := Head.char.inj h
          rw [utf8EncodeChar_three hr hb hc]
          rfl
    · split at h
      · cases h
      · split_ifs at h with hb
        split at h
        · cases h
        · split_ifs at h with hc
          split at h
          · cases h
          · split_ifs at h with hd
            obtain ⟨rfl, rfl⟩ := Head.char.inj h
            rw [utf8EncodeChar_four hr hb hc hd]
            rfl
    · cases h

end Head

/-! ## Whole texts -/

theorem decodeFrom_cons {index : Nat} {o : UInt8} {rest r : Bytes} {c : Char}
    (h : head o rest = .char c r) : decodeFrom index (o :: rest)
      = (decodeFrom (index + ((o :: rest).length - r.length)) r).map (c :: ·) := by
  rw [decodeFrom]
  split
  · rename_i c' r' h'
    rw [h, Head.char.injEq] at h'
    obtain ⟨rfl, rfl⟩ := h'
    dsimp only
    split <;> rename_i hr <;> rw [hr] <;> rfl
  · rename_i h'
    rw [h] at h'
    cases h'
  · rename_i h'
    rw [h] at h'
    cases h'

theorem decodeFrom_flatMap (cs : List Char) (index : Nat) :
    decodeFrom index (cs.flatMap String.utf8EncodeChar) = .ok cs := by
  induction cs generalizing index with
  | nil => rw [List.flatMap_nil, decodeFrom]
  | cons c cs ih =>
    obtain ⟨o, tail, henc, hhead⟩ := head_utf8EncodeChar (cs.flatMap String.utf8EncodeChar) c
    rw [List.flatMap_cons, henc, List.cons_append, decodeFrom_cons hhead, ih]
    rfl

/-- The octets of a text are read as the text. -/
theorem decode_encode (s : String) : decode (encode s) = .ok s := by
  rw [decode, encode, decodeFrom_flatMap]
  exact congrArg Except.ok (String.ofList_toList)

theorem flatMap_of_decodeFrom {b : Bytes} {index : Nat} {cs : List Char}
    (h : decodeFrom index b = .ok cs) : cs.flatMap String.utf8EncodeChar = b := by
  induction cs generalizing index b with
  | nil =>
    cases b with
    | nil => rfl
    | cons o rest =>
      rw [decodeFrom] at h
      split at h
      · split at h <;> cases h
      all_goals cases h
  | cons c cs ih =>
    cases b with
    | nil =>
      rw [decodeFrom] at h
      cases h
    | cons o rest =>
      rw [decodeFrom] at h
      split at h
      · rename_i hhead
        split at h
        · rename_i hrest
          obtain ⟨rfl, rfl⟩ := List.cons.inj (Except.ok.inj h)
          rw [List.flatMap_cons, ih hrest, append_of_head hhead]
        · cases h
      all_goals cases h

/-- Octets that are read as a text are those of the text: it has no other form. -/
theorem encode_of_decode {b : Bytes} {s : String} (h : decode b = .ok s) : encode s = b := by
  rw [decode] at h
  cases hdecode : decodeFrom 0 b with
  | error e => rw [hdecode] at h; cases h
  | ok cs =>
    rw [hdecode] at h
    rw [← Except.ok.inj h, encode, String.toList_ofList, flatMap_of_decodeFrom hdecode]

/-- Characters of one octet each. -/
theorem length_encode_ascii {cs : List Char} (h : ∀ c ∈ cs, c.toNat < 128) :
    (encode (String.ofList cs)).length = cs.length := by
  rw [encode, String.toList_ofList]
  induction cs with
  | nil => rfl
  | cons c cs ih =>
    rw [List.forall_mem_cons] at h
    have hsize : (String.utf8EncodeChar c).length = 1 := by
      rw [String.length_utf8EncodeChar, Char.utf8Size_eq_one_iff]
      exact Nat.le_of_lt_succ h.1
    rw [List.flatMap_cons, List.length_append, ih h.2, hsize, List.length_cons, Nat.add_comm]

end IlpConnector.Utf8
