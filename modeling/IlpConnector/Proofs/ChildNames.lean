import IlpConnector.Proofs.ChildSpace
import IlpConnector.Proofs.PrefixOrder
import IlpConnector.Proofs.Retention
import Mathlib.Data.List.Infix

/-!
# Which accounts can be children

An account's id may have dots anywhere.  Behind the node's address every dot begins a segment, and
segments are not empty, so a child has an address just if no dot of its id stands at an end or
beside another dot (`AccountId.DotsApart`).  A node starts just if that is so of all its children
(`Node.children_named`).
-/

namespace IlpConnector

namespace Address

variable {cs t : List Char} {c : Char} {a r : Address} {s : String}

/-! ## The texts between dots -/

theorem ne_dot_of_mem_splitDots (h : t ∈ splitDots cs) (hc : c ∈ t) : c ∈ cs ∧ c ≠ '.' := by
  induction cs generalizing t with
  | nil =>
    obtain rfl := List.mem_singleton.mp h
    cases hc
  | cons d cs ih =>
    unfold splitDots at h
    split_ifs at h with hd
    · rcases List.mem_cons.mp h with rfl | h
      · cases hc
      · exact (ih h hc).imp_left (List.mem_cons_of_mem _)
    · cases hsplit : splitDots cs with
      | nil => exact absurd hsplit (splitDots_ne_nil cs)
      | cons u us =>
        rw [hsplit] at h ih
        rcases List.mem_cons.mp h with rfl | h
        · rcases List.mem_cons.mp hc with rfl | hc
          · exact ⟨List.mem_cons_self, hd⟩
          · exact (ih List.mem_cons_self hc).imp_left (List.mem_cons_of_mem _)
        · exact (ih (List.mem_cons_of_mem _ h) hc).imp_left (List.mem_cons_of_mem _)

/-- One of the texts between dots is empty just if a dot stands at an end or beside another one. -/
theorem nil_mem_splitDots_iff (hne : cs ≠ []) : [] ∈ splitDots cs ↔
    cs.head? = some '.' ∨ cs.getLast? = some '.' ∨ ['.', '.'] <:+: cs := by
  rw [List.head?_eq_some_iff, List.getLast?_eq_some_iff]
  constructor
  · intro h
    obtain ⟨front, back, hsplit⟩ := List.append_of_mem h
    have hcs := intercalate_splitDots cs
    rw [hsplit] at hcs
    cases back with
    | nil =>
      cases front with
      | nil => exact absurd hcs.symm hne
      | cons u us =>
        rw [intercalate_append _ (by simp) (by simp)] at hcs
        exact Or.inr (Or.inl ⟨_, by simpa using hcs.symm⟩)
    | cons v vs =>
      have hback : ['.'].intercalate ([] :: v :: vs) = '.' :: ['.'].intercalate (v :: vs) := by
        rw [List.intercalate_cons_of_ne_nil (by simp)]
        rfl
      cases front with
      | nil => exact Or.inl ⟨_, hcs.symm.trans hback⟩
      | cons u us =>
        rw [intercalate_append _ (by simp) (by simp), hback] at hcs
        exact Or.inr (Or.inr ⟨_, _, by simpa using hcs⟩)
  · have hfront (ds : List Char) : [] ∈ splitDots ('.' :: ds) := List.mem_cons_self
    rintro (⟨ds, rfl⟩ | ⟨ds, rfl⟩ | ⟨ds, es, rfl⟩)
    · exact hfront ds
    · rw [splitDots_append_dot]
      exact List.mem_append_right _ List.mem_cons_self
    · rw [List.append_assoc, List.cons_append, splitDots_append_dot]
      exact List.mem_append_right _ (hfront es)

/-! ## What keeps a text from being put behind an address -/

theorem firstDefect_append {front rest : List (List Char)} (hne : front ≠ [])
    (h : firstDefect front = none) : firstDefect (front ++ rest)
      = (rest.find? (!isSegment ·)).map fun t => .invalidSegment (String.ofList t) := by
  cases front with
  | nil => exact absurd rfl hne
  | cons scheme front =>
    obtain ⟨hscheme, hfront⟩ := firstDefect_cons_eq_none_iff.mp h
    have hnone : front.find? (!isSegment ·) = none := by
      rw [List.find?_eq_none]
      simpa using hfront
    rw [List.cons_append, firstDefect, if_pos (by simpa using hscheme), List.find?_append, hnone,
      Option.none_or]

/-- Where there is room, the first part that is no segment is to blame. -/
theorem withSuffix_eq_error (hsize : a.text.utf8ByteSize + 1 + s.utf8ByteSize ≤ maxLength)
    (h : (splitDots s.toList).find? (!isSegment ·) = some t) :
    a.withSuffix s = .error (.invalidSegment (String.ofList t)) := by
  have hroom : ¬ maxLength < (a.text ++ "." ++ s).utf8ByteSize := by
    rw [String.utf8ByteSize_append, String.utf8ByteSize_append]
    exact Nat.not_lt.mpr hsize
  have hdefect : defect 2 (a.text ++ "." ++ s) = some (.invalidSegment (String.ofList t)) := by
    obtain ⟨-, hnone, -⟩ := defect_eq_none_iff.mp a.valid
    rw [defect, if_neg hroom, toList_append_dot, splitDots_append_dot,
      firstDefect_append (splitDots_ne_nil _) hnone, h]
    rfl
  unfold withSuffix ofText
  split
  · rename_i hnone
    rw [hdefect] at hnone
    cases hnone
  · rename_i e he
    rw [hdefect, Option.some.injEq] at he
    rw [he]

end Address

/-! ## The ids of children -/

namespace AccountId

open Address (splitDots isSegment isSegmentChar)

/-- No dot of the id stands at an end, or beside another dot. -/
def DotsApart (a : AccountId) : Prop :=
  a.text.toList.head? ≠ some '.' ∧ a.text.toList.getLast? ≠ some '.' ∧
    ¬ ['.', '.'] <:+: a.text.toList

instance (a : AccountId) : Decidable a.DotsApart :=
  inferInstanceAs (Decidable (_ ∧ _ ∧ ¬ _))

variable (a : AccountId)

theorem isValid_iff {s : String} : isValid s = true ↔
    s.toList ≠ [] ∧ s.toList.length ≤ 64 ∧ ∀ c ∈ s.toList, isIdChar c = true := by
  simp [isValid, Nat.one_le_iff_ne_zero, and_assoc]

theorem utf8Size_of_isIdChar {c : Char} (h : isIdChar c = true) : c.utf8Size = 1 := by
  rw [Char.utf8Size_eq_one_iff, UInt32.le_iff_toNat_le]
  delta isIdChar Char.isAlphanum Char.isAlpha Char.isUpper Char.isLower Char.isDigit at h
  simp only [Bool.or_eq_true, Bool.and_eq_true, decide_eq_true_eq, UInt32.le_iff_toNat_le,
    ge_iff_le] at h
  rcases h with (((((h | h) | h) | rfl) | rfl) | rfl) | rfl
  · exact h.2.trans (by decide)
  · exact h.2.trans (by decide)
  · exact h.2.trans (by decide)
  all_goals decide

theorem utf8Len_eq_length {cs : List Char} (h : ∀ c ∈ cs, c.utf8Size = 1) :
    String.utf8Len cs = cs.length := by
  induction cs with
  | nil => rfl
  | cons c cs ih =>
    obtain ⟨hc, hcs⟩ := List.forall_mem_cons.mp h
    rw [String.utf8Len_cons, hc, ih hcs, List.length_cons]

/-- The characters of an id are of one octet each. -/
theorem utf8ByteSize_le : a.text.utf8ByteSize ≤ 64 := by
  obtain ⟨-, hlength, hchars⟩ := isValid_iff.mp a.valid
  rw [← String.ofList_toList (s := a.text), String.utf8ByteSize_ofList,
    utf8Len_eq_length fun c hc => utf8Size_of_isIdChar (hchars c hc)]
  exact hlength

/-- What stands between the dots of an id is a segment, unless it is empty. -/
theorem isSegment_iff_ne_nil {t : List Char} (h : t ∈ splitDots a.text.toList) :
    isSegment t = true ↔ t ≠ [] := by
  obtain ⟨-, -, hchars⟩ := isValid_iff.mp a.valid
  rw [Address.isSegment_iff, and_iff_left]
  intro c hc
  obtain ⟨hmem, hne⟩ := Address.ne_dot_of_mem_splitDots h hc
  have hid := hchars c hmem
  simp only [isIdChar, isSegmentChar, Bool.or_eq_true, decide_eq_true_eq] at hid ⊢
  tauto

theorem dotsApart_iff : a.DotsApart ↔ [] ∉ splitDots a.text.toList := by
  rw [Address.nil_mem_splitDots_iff (isValid_iff.mp a.valid).1, not_or, not_or]
  rfl

theorem dotted_iff_dotsApart : Address.Dotted a.text ↔ a.DotsApart := by
  rw [Address.dotted_iff, dotsApart_iff]
  constructor
  · intro h hnil
    exact (a.isSegment_iff_ne_nil hnil).mp (h _ hnil) rfl
  · intro h t ht
    refine (a.isSegment_iff_ne_nil ht).mpr ?_
    rintro rfl
    exact h ht

/-- Else the first part that is no segment is an empty one. -/
theorem find?_of_not_dotsApart (h : ¬ a.DotsApart) :
    (splitDots a.text.toList).find? (!isSegment ·) = some [] := by
  rw [dotsApart_iff, not_not] at h
  have hsome : ((splitDots a.text.toList).find? (!isSegment ·)).isSome = true :=
    List.find?_isSome.mpr ⟨[], h, rfl⟩
  obtain ⟨t, ht⟩ := Option.isSome_iff_exists.mp hsome
  have hinvalid := List.find?_some ht
  have hnil : t = [] := by
    by_contra hne
    rw [(a.isSegment_iff_ne_nil (List.mem_of_find?_eq_some ht)).mpr hne] at hinvalid
    cases hinvalid
  rw [ht, hnil]

end AccountId

/-! ## Nodes with children -/

namespace Node

variable {n : Node} {home : Address} {account : AccountSettings}

/-- The longest address of a node that leaves room for any id. -/
def maxHomeLength : ℕ := 958

theorem room_of_le (hsize : home.text.utf8ByteSize ≤ maxHomeLength) (c : AccountId) :
    home.text.utf8ByteSize + 1 + c.text.utf8ByteSize ≤ Address.maxLength := by
  have hid := c.utf8ByteSize_le
  rw [maxHomeLength] at hsize
  rw [Address.maxLength]
  omega

theorem exists_childAddress_iff (hsize : home.text.utf8ByteSize ≤ maxHomeLength) (c : AccountId) :
    (∃ a, childAddress home c = .ok a) ↔ c.DotsApart := by
  rw [← c.dotted_iff_dotsApart]
  exact Address.exists_withSuffix_iff.trans (and_iff_left (room_of_le hsize c))

theorem childAddress_of_not_dotsApart (hsize : home.text.utf8ByteSize ≤ maxHomeLength)
    {c : AccountId} (h : ¬ c.DotsApart) : childAddress home c = .error (.invalidSegment "") :=
  Address.withSuffix_eq_error (room_of_le hsize c) (c.find?_of_not_dotsApart h)

/-- Only a child that can have no address keeps a node from putting its account into operation. -/
theorem enlist_snd (hop : n.operator = some home) (link : LinkRef) (id : TableId) :
    (n.enlist account link id).2 = if account.relationship = .child then
      match childAddress home account.id with
      | .ok _ => none
      | .error e => some (.childAddress account.id e)
    else none := by
  unfold enlist addChildRoute
  dsimp only
  rw [hop]
  split_ifs
  · dsimp only
    cases childAddress home account.id <;> rfl
  · rfl

theorem enlist_snd_eq_some_iff (hop : n.operator = some home)
    (hsize : home.text.utf8ByteSize ≤ maxHomeLength) (account : AccountSettings) (link : LinkRef)
    (id : TableId) (e : NodeError) : (n.enlist account link id).2 = some e ↔
      account.relationship = .child ∧ ¬ account.id.DotsApart ∧
        e = .childAddress account.id (.invalidSegment "") := by
  rw [enlist_snd hop]
  split_ifs with hchild
  · by_cases hdots : account.id.DotsApart
    · obtain ⟨a, ha⟩ := (exists_childAddress_iff hsize _).mpr hdots
      simp [ha, hdots]
    · simp [childAddress_of_not_dotsApart hsize hdots, hdots, hchild, eq_comm]
  · simp [hchild]

variable {s : ConnectorSettings} {accounts : List AccountSettings} {secret : Bytes} {id : TableId}
  {n₀ m : Node}

theorem exists_started_iff (hn₀ : ofSettings s accounts secret id = .ok n₀)
    (hhome : s.operatorAddress = some home) (hsize : home.text.utf8ByteSize ≤ maxHomeLength) :
    (∃ n, Started n₀ n) ↔ ∀ c ∈ accounts, c.relationship = .child → c.id.DotsApart := by
  constructor
  · rintro ⟨n, hn⟩ c hc hchild
    obtain ⟨m, -, -, hinv⟩ := hn.inv hn₀ hhome
    obtain ⟨a, ha, -⟩ := hinv.children c hc hchild
    exact (exists_childAddress_iff hsize c.id).mp ⟨a, ha⟩
  · intro h
    exact exists_started hn₀ hhome fun c hc hchild =>
      (exists_childAddress_iff hsize c.id).mpr (h c hc hchild)

/-! ## The task that brings a node up -/

section BringUp

open Procedure (task retention linking enlisting beginning afterBeginning)

variable {name : String} {start x : Network} {as : List AccountSettings}

/-- What the end of putting accounts into operation tells about the children among them. -/
def Reveals (as : List AccountSettings) : Option NodeError → Prop
  | none => ∀ c ∈ as, c.relationship = .child → c.id.DotsApart
  | some (.childAddress a e) => e = .invalidSegment "" ∧
    ∃ c ∈ as, c.id = a ∧ c.relationship = .child ∧ ¬ c.id.DotsApart
  | some _ => True

theorem Reveals.cons {a : AccountSettings} {failure : Option NodeError}
    (ha : a.relationship = .child → a.id.DotsApart) (h : Reveals as failure) :
    Reveals (a :: as) failure := by
  rcases failure with - | e
  · exact List.forall_mem_cons.mpr ⟨ha, h⟩
  · cases e with
    | childAddress id e =>
      obtain ⟨he, c, hc, hdots⟩ := h
      exact ⟨he, c, List.mem_cons_of_mem a hc, hdots⟩
    | _ => trivial

/-- Putting an account into operation fails just for a child that can have no address. -/
theorem enlisting_cases (account : AccountSettings)
    (hsize : home.text.utf8ByteSize ≤ maxHomeLength) (h : x.operatorOf name = some home)
    (link : LinkRef) :
    (enlisting name account link x).1 = none ∧
        (account.relationship = .child → account.id.DotsApart) ∨
      (enlisting name account link x).1 = some (.childAddress account.id (.invalidSegment "")) ∧
        account.relationship = .child ∧ ¬ account.id.DotsApart := by
  obtain ⟨m, hm, hop⟩ := Option.bind_eq_some_iff.mp h
  have hiff (e : NodeError) := enlist_snd_eq_some_iff hop hsize account link x.newId.1 e
  unfold enlisting
  rw [hm]
  dsimp only
  cases hfailure : (m.enlist account link x.newId.1).2 with
  | none =>
    refine Or.inl ⟨rfl, fun hchild => ?_⟩
    by_contra hdots
    rw [(hiff _).mpr ⟨hchild, hdots, rfl⟩] at hfailure
    cases hfailure
  | some e =>
    obtain ⟨hchild, hdots, rfl⟩ := (hiff e).mp hfailure
    exact Or.inr ⟨rfl, hchild, hdots⟩

theorem meets_enlistAll (hsize : home.text.utf8ByteSize ≤ maxHomeLength)
    (h : x.operatorOf name = some home) : (Procedure.enlistAll name as).Meets (retention start) x
      fun failure _ => Reveals as failure := by
  induction as generalizing x with
  | nil => exact fun _ _ c hc => absurd hc List.not_mem_nil
  | cons a rest ih =>
    rw [Procedure.enlistAll_cons]
    refine fun y hy => ⟨Procedure.retains_linking a y, ?_⟩
    have hlinked : (linking name a y).2.operatorOf name = some home :=
      (Procedure.retains_linking a y).operatorOf (Network.Retains.operatorOf hy h)
    cases (linking name a y).1 with
    | error e => exact fun _ _ => trivial
    | ok link =>
      refine ⟨trivial, fun _ z hz _ w hw => ⟨Procedure.retains_enlisting a w, ?_⟩⟩
      have hop : w.operatorOf name = some home :=
        Network.Retains.operatorOf hw (Network.Retains.operatorOf hz hlinked)
      rcases enlisting_cases a hsize hop link with ⟨hnone, ha⟩ | ⟨hsome, ha⟩
      · rw [hnone]
        have hkept : (enlisting name a link w).2.operatorOf name = some home :=
          (Procedure.retains_enlisting a w).operatorOf hop
        exact (ih hkept).imp fun failure _ _ hrest => hrest.cons ha
      · rw [hsome]
        exact fun _ _ => ⟨rfl, a, List.mem_cons_self, rfl, ha⟩

/-- The end of the task that brings a node up tells the same, whatever else goes on meanwhile. -/
theorem explains_bringUp {s : Scheduler Network Procedure Outcome} (hs : s.Ongoing)
    (hready : s.ready = []) (hsize : home.text.utf8ByteSize ≤ maxHomeLength)
    (hm : s.state.nodes.get? name = some n) (hop : n.operator = some home) {o : Outcome}
    (ho : (s.perform task (.bringUp name)).1 = some (.finished o)) :
    (o = .finished → Reveals n.configured none) ∧
      ∀ e, o = .nodeFailed e → Reveals n.configured (some e) := by
  refine hs.bringUp (P := fun o => (o = .finished → Reveals n.configured none) ∧
    ∀ e, o = .nodeFailed e → Reveals n.configured (some e)) hready ?_ ho
  have hbegun : (beginning name s.state).2.operatorOf name = some home :=
    (Procedure.retains_beginning s.state).operatorOf (Option.bind_eq_some_iff.mpr ⟨n, hm, hop⟩)
  have hbegin : (beginning name s.state).1
      = if n.started then .error .alreadyStarted else .ok n.configured := by
    unfold beginning
    rw [hm, Option.map_some, begin]
    split_ifs <;> rfl
  rw [hbegin]
  split_ifs
  · refine fun _ _ => ⟨nofun, fun e he => ?_⟩
    obtain rfl := Outcome.nodeFailed.inj he
    trivial
  · refine Flow.meets_bind (meets_enlistAll hsize hbegun) fun failure y _ hexplains => ?_
    cases failure with
    | some e =>
      refine fun _ _ => ⟨nofun, fun e' he => ?_⟩
      obtain rfl := Outcome.nodeFailed.inj he
      exact hexplains
    | none =>
      refine fun z _ => ⟨.of_eq rfl, ?_⟩
      exact Flow.meets_bind ((Procedure.retaining_inquiring _).meets_true _ z) fun _ _ _ _ _ _ =>
        ⟨fun _ => hexplains, nofun⟩

end BringUp

/-- A child has an address below a node's own, where that leaves room for it, just if no dot of its
id stands at an end or beside another one.  A node can start just if that is so of all its children.
Whatever else goes on while it comes up, it does so only if that is so, and it fails for want of a
child's address only for a child of which it is not so. -/
theorem children_named (hsize : home.text.utf8ByteSize ≤ maxHomeLength) :
    (∀ c : AccountId, if c.DotsApart then
        ∃ a, childAddress home c = .ok a ∧ a.text = home.text ++ "." ++ c.text
      else childAddress home c = .error (.invalidSegment "")) ∧
    (∀ (s : ConnectorSettings) (accounts : List AccountSettings) (secret : Bytes) (id : TableId)
      (n₀ : Node), ofSettings s accounts secret id = .ok n₀ → s.operatorAddress = some home →
      ((∃ n, Started n₀ n) ↔ ∀ c ∈ accounts, c.relationship = .child → c.id.DotsApart)) ∧
    ∀ (s : Scheduler Network Procedure Outcome) (name : String) (n : Node), s.Ongoing →
      s.ready = [] → s.state.nodes.get? name = some n → n.operator = some home →
      ∀ o, (s.perform Procedure.task (.bringUp name)).1 = some (.finished o) →
        (o = .finished → ∀ c ∈ n.configured, c.relationship = .child → c.id.DotsApart) ∧
        ∀ a e, o = .nodeFailed (.childAddress a e) → e = .invalidSegment "" ∧
          ∃ c ∈ n.configured, c.id = a ∧ c.relationship = .child ∧ ¬ c.id.DotsApart := by
  refine ⟨fun c => ?_, fun s accounts secret id n₀ hn₀ hhome => exists_started_iff hn₀ hhome hsize,
    fun s name n hs hready hm hop o ho => ?_⟩
  · split_ifs with hdots
    · obtain ⟨a, ha⟩ := (exists_childAddress_iff hsize c).mpr hdots
      exact ⟨a, ha, Address.text_of_ofText ha⟩
    · exact childAddress_of_not_dotsApart hsize hdots
  · obtain ⟨hup, hfailed⟩ := explains_bringUp hs hready hsize hm hop ho
    exact ⟨hup, fun a e he => hfailed _ he⟩

namespace Household

/-- A child whose id has two dots beside each other. -/
def dots : AccountSettings := .plain ⟨"a..b", by decide +kernel⟩ .child .loopback

/-- Why a node with these accounts does not come up. -/
def failure? (accounts : List AccountSettings) : Option NodeError :=
  match (Scheduler.perform Procedure.task (.bringUp "a")
    { state := { now := ⟨0⟩, nodes := Dict.ofList [("a", idle accounts)] } }).1 with
  | some (.finished (.nodeFailed e)) => some e
  | _ => none

end Household

open Household

theorem children_named_apart : house.text.utf8ByteSize ≤ maxHomeLength ∧ bobX.id.DotsApart ∧
    (∃ a, childAddress house bobX.id = .ok a ∧ a.text = house.text ++ "." ++ bobX.id.text) ∧
    ∃ n, Started (idle [bobX]) n := by
  have hsize : house.text.utf8ByteSize ≤ maxHomeLength := by decide +kernel
  have hdots : bobX.id.DotsApart := by decide +kernel
  obtain ⟨haddress, hstart, -⟩ := children_named hsize
  have hbob := haddress bobX.id
  rw [if_pos hdots] at hbob
  refine ⟨hsize, hdots, hbob, (hstart _ _ _ _ _ (ofSettings_idle rfl) rfl).mpr ?_⟩
  intro c hc _
  obtain rfl := List.mem_singleton.mp hc
  exact hdots

/-- The id of an account need not name a child: the node of which it is one does not come up. -/
theorem child_unnamed : house.text.utf8ByteSize ≤ maxHomeLength ∧
    house.withSuffix dots.id.text = .error (.invalidSegment "") ∧
    failure? [dots] = some (.childAddress dots.id (.invalidSegment "")) := by
  refine ⟨by decide +kernel, by decide +kernel, ?_⟩
  decide +kernel

end Node

end IlpConnector
