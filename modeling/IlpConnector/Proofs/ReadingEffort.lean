import IlpConnector.Ccp.Codec
import IlpConnector.Proofs.FieldSequence
import Mathlib.Algebra.BigOperators.Group.List.Basic

/-!
# How much work it is to read a route message

A list announces how many items follow, in up to 64 bits, and the lists of a route message lie in
each other.  Whatever they announce, no more items are tried than there are octets, but for one try
that fails in each of the lists around it; and a list that announces more items than octets are left
is refused, without more room set aside for it than that (`reading_bounded`).

This is said of readers that keep a record of what they try (`Recorder`), and that read just what
the readers of messages read (`Recorder.Reads`).  What bounds them all is that an item takes an
octet at least (`Recorder.Sparing`).
-/

namespace IlpConnector

open Oer

/-! ## Readers that keep a record -/

/-- What is noted of reading lists. -/
inductive ReadStep where
  /-- A list announces so many items, while so many octets are left, and room is set aside. -/
  | opens (announced left room : ℕ)
  /-- An item is tried. -/
  | item
deriving DecidableEq

namespace ReadStep

theorem count_opens (announced left room : ℕ) (steps : List ReadStep) :
    (opens announced left room :: steps).count item = steps.count item :=
  List.count_cons_of_ne (by simp)

/-- What a list has announced. -/
def announced? : ReadStep → Option ℕ
  | opens announced _ _ => some announced
  | item => none

/-- What the lists have announced that have been read, in their order. -/
def opened (steps : List ReadStep) : List ℕ := steps.filterMap announced?

theorem opened_append (steps more : List ReadStep) :
    opened (steps ++ more) = opened steps ++ opened more :=
  List.filterMap_append

end ReadStep

/-- A reader with the record of what it tries, up to its first error. -/
def Recorder (α : Type) : Type := Bytes → List ReadStep × Except PacketError (α × Bytes)

namespace Recorder

variable {α β : Type}

instance : Monad Recorder where
  pure a := fun b => ([], .ok (a, b))
  bind r k := fun b =>
    match r b with
    | (steps, .error e) => (steps, .error e)
    | (steps, .ok (a, b)) => (steps ++ (k a b).1, (k a b).2)

/-- Reads something without lists. -/
def plain (read : Reader PacketError α) : Recorder α := fun b => ([], read b)

/-- Tries an item. -/
def attempt (item : Recorder α) : Recorder α := fun b => (.item :: (item b).1, (item b).2)

/-- The items for which room is set aside, of so many announced ones and with so many octets
left. -/
def roomFor (announced : UInt64) (left : ℕ) : ℕ := (min announced (.ofNat left)).toNat

/-- Sets aside room for items. -/
def setAside (announced : UInt64) : Recorder Unit := fun b =>
  ([.opens announced.toNat b.length (roomFor announced b.length)], .ok ((), b))

def many (item : Recorder α) : ℕ → Recorder (List α)
  | 0 => pure []
  | n + 1 => do
    let a ← attempt item
    let as ← many item n
    return a :: as

/-- A list of items after their number. -/
def list (item : Recorder α) : Recorder (List α) := do
  let n ← plain (asPacket readVarUInt)
  setAside n
  many item n.toNat

end Recorder

namespace RouteControl

def record : Recorder RouteControl := do
  let mode ← .plain readMode
  let tableId ← .plain readTableId
  let epoch ← .plain (asPacket readUInt32)
  let features ← .list (.plain readText)
  return ⟨mode, tableId, epoch, features⟩

/-- The items of a request. -/
def size (c : RouteControl) : ℕ := c.features.length

/-- How long the lists of a request are. -/
def lists (c : RouteControl) : List ℕ := [c.features.length]

end RouteControl

namespace Announcement

def record : Recorder Announcement := do
  let target ← .plain readAddressPrefix
  let path ← .list (.plain readAddress)
  let auth ← .plain (asPacket (readOctets 32))
  let props ← .list (.plain RouteProp.read)
  return ⟨target, path, auth, props⟩

/-- The items of the lists in an announcement. -/
def size (a : Announcement) : ℕ := a.path.length + a.props.length

def lists (a : Announcement) : List ℕ := [a.path.length, a.props.length]

end Announcement

namespace RouteUpdate

def record : Recorder RouteUpdate := do
  let tableId ← .plain readTableId
  let currentEpoch ← .plain (asPacket readUInt32)
  let fromEpoch ← .plain (asPacket readUInt32)
  let toEpoch ← .plain (asPacket readUInt32)
  let holdDown ← .plain (asPacket readUInt32)
  let speaker ← .plain readAddress
  let announced ← .list Announcement.record
  let withdrawn ← .list (.plain readAddressPrefix)
  return ⟨tableId, currentEpoch, fromEpoch, toEpoch, holdDown, speaker, announced, withdrawn⟩

/-- The items of an update, those in announcements among them. -/
def size (u : RouteUpdate) : ℕ :=
  (u.announced.map Announcement.size).sum + u.announced.length + u.withdrawn.length

/-- How long the lists of an update are, those in announcements among them, in the order in which
they are read. -/
def lists (u : RouteUpdate) : List ℕ :=
  u.announced.length :: u.announced.flatMap Announcement.lists ++ [u.withdrawn.length]

end RouteUpdate

/-! ## What they read -/

namespace Recorder

variable {α β : Type} {r : Recorder α} {read : Reader PacketError α}

/-- The recorder reads what the reader reads. -/
def Reads (r : Recorder α) (read : Reader PacketError α) : Prop := ∀ b, (r b).2 = read b

theorem reads_pure (a : α) : Reads (pure a) fun b => .ok (a, b) := fun _ => rfl

theorem reads_plain (read : Reader PacketError α) : (plain read).Reads read := fun _ => rfl

theorem Reads.bind {k : α → Recorder β} {next : α → Reader PacketError β} (hr : r.Reads read)
    (hk : ∀ a, (k a).Reads (next a)) :
    (r >>= k).Reads fun b => read b >>= fun x => next x.1 x.2 := by
  intro b
  dsimp only
  rw [← hr b]
  change (match r b with
    | (steps, .error e) => (steps, .error e)
    | (steps, .ok (a, b)) => (steps ++ (k a b).1, (k a b).2) : _ × _).2 = _
  rcases r b with ⟨steps, e | ⟨a, rest⟩⟩
  · rfl
  · exact hk a rest

theorem Reads.many (hr : r.Reads read) (n : ℕ) : (Recorder.many r n).Reads (readMany read n) := by
  induction n with
  | zero => exact reads_pure []
  | succ n ih =>
    intro b
    have hattempt : (attempt r).Reads read := hr
    have hstep : (Recorder.many r (n + 1)).Reads fun b => read b >>= fun x =>
        readMany read n x.2 >>= fun y => .ok (x.1 :: y.1, y.2) :=
      hattempt.bind fun a => ih.bind fun as => reads_pure (a :: as)
    refine (hstep b).trans ?_
    dsimp only
    rw [readMany]
    cases read b with
    | error e => rfl
    | ok x => cases h : readMany read n x.2 <;> simp [h, Bind.bind, Except.bind]

theorem Reads.list (hr : r.Reads read) : (Recorder.list r).Reads (readList read) := by
  have hroom (n : UInt64) : (setAside n).Reads fun b => .ok ((), b) := fun _ => rfl
  exact (reads_plain _).bind fun n => (hroom n).bind fun _ => hr.many n.toNat

end Recorder

theorem RouteControl.reads_record : record.Reads read :=
  (Recorder.reads_plain _).bind fun _ => (Recorder.reads_plain _).bind fun _ =>
    (Recorder.reads_plain _).bind fun _ =>
      (Recorder.reads_plain _).list.bind fun _ => Recorder.reads_pure _

theorem Announcement.reads_record : record.Reads read :=
  (Recorder.reads_plain _).bind fun _ => (Recorder.reads_plain _).list.bind fun _ =>
    (Recorder.reads_plain _).bind fun _ =>
      (Recorder.reads_plain _).list.bind fun _ => Recorder.reads_pure _

theorem RouteUpdate.reads_record : record.Reads read :=
  (Recorder.reads_plain _).bind fun _ => (Recorder.reads_plain _).bind fun _ =>
    (Recorder.reads_plain _).bind fun _ => (Recorder.reads_plain _).bind fun _ =>
      (Recorder.reads_plain _).bind fun _ => (Recorder.reads_plain _).bind fun _ =>
        Announcement.reads_record.list.bind fun _ =>
          (Recorder.reads_plain _).list.bind fun _ => Recorder.reads_pure _

/-! ## Octets that are taken -/

/-- So many octets at least are taken from the front. -/
def Takes {ε α : Type} (least : ℕ) (read : Reader ε α) : Prop :=
  ∀ b a rest, read b = .ok (a, rest) → least + rest.length ≤ b.length

namespace Takes

variable {ε α β γ : Type} {m n : ℕ} {read : Reader ε α}

theorem mono (h : Takes m read) (hle : n ≤ m) : Takes n read := fun b a rest hb =>
  (Nat.add_le_add_right hle _).trans (h b a rest hb)

theorem bind {next : α → Reader ε β} (h : Takes m read) (hnext : ∀ a, Takes n (next a)) :
    Takes (m + n) fun b => read b >>= fun x => next x.1 x.2 := by
  intro b y rest hb
  obtain ⟨⟨a, b'⟩, ha, hy⟩ := exists_of_bind_eq_ok hb
  have hfirst := h b a b' ha
  have hlast := hnext a b' y rest hy
  omega

/-- What is made of what was read takes nothing more. -/
theorem parse (h : Takes m read) (f : α → Except ε β) :
    Takes m fun b => read b >>= fun x => f x.1 >>= fun y => .ok (y, x.2) := by
  intro b y rest hb
  obtain ⟨⟨a, b'⟩, ha, hy⟩ := exists_of_bind_eq_ok hb
  obtain ⟨y', -, hy⟩ := exists_of_bind_eq_ok hy
  obtain ⟨-, rfl⟩ := Prod.mk.inj (Except.ok.inj hy)
  exact h b a b' ha

theorem map (h : Takes m read) (f : α → β) :
    Takes m fun b => (read b).map fun x => (f x.1, x.2) := by
  intro b y rest hb
  obtain ⟨⟨a, rest'⟩, ha, hy⟩ := exists_of_map_eq_ok hb
  obtain ⟨-, rfl⟩ := Prod.mk.inj hy
  exact h b a rest' ha

theorem asPacket {read : Reader ReadError α} (h : Takes m read) : Takes m (asPacket read) :=
  fun b a rest hb => h b a rest (of_mapError_eq_ok hb)

end Takes

theorem takes_readLength : Takes 1 readLength := fun b n rest h => by
  have hlt := length_lt_of_readLength h
  omega

theorem takes_readBytes (n : ℕ) : Takes n (readBytes n) := fun b s rest h => by
  obtain ⟨rfl, rfl⟩ := readBytes_eq_ok_iff.mp h
  rw [List.length_append]

theorem takes_readExact (n : ℕ) : Takes n (readExact n) := fun b s rest h => by
  obtain ⟨rfl, rfl⟩ := readExact_eq_ok_iff.mp h
  rw [List.length_append]

theorem takes_readNat (n : ℕ) : Takes n (readNat n) := (takes_readExact n).map _

theorem takes_readOctets (n : ℕ) : Takes n (readOctets n) := fun b o rest h => by
  unfold readOctets at h
  split_ifs at h with hn
  obtain ⟨-, rfl⟩ := Prod.mk.inj (Except.ok.inj h)
  rw [List.length_drop]
  omega

theorem takes_readUInt8 : Takes 1 readUInt8 := fun b o rest h => by
  cases b with
  | nil => cases h
  | cons o' b =>
    obtain ⟨-, rfl⟩ := Prod.mk.inj (Except.ok.inj h)
    rw [List.length_cons, Nat.add_comm]

theorem takes_readString : Takes 1 readString :=
  takes_readLength.bind fun n => (takes_readBytes n).mono (Nat.zero_le n)

theorem takes_readVarUInt : Takes 1 readVarUInt := fun b v rest h => by
  obtain ⟨⟨n, b'⟩, hn, h⟩ := exists_of_bind_eq_ok h
  dsimp only at h
  split_ifs at h
  obtain ⟨⟨v', rest'⟩, hv, h⟩ := exists_of_bind_eq_ok h
  obtain ⟨-, rfl⟩ := Prod.mk.inj (Except.ok.inj h)
  have hlength := takes_readLength b n b' hn
  have hdigits := takes_readNat n b' v' rest' hv
  dsimp only
  omega

/-! ### Fields of messages -/

theorem takes_readText : Takes 1 readText :=
  takes_readString.asPacket.parse fun text => (Utf8.decode text).mapError .text

theorem takes_readAddress : Takes 1 readAddress :=
  takes_readString.asPacket.parse fun text => (Address.ofBytes text).mapError .address

theorem takes_readAddressPrefix : Takes 1 readAddressPrefix :=
  takes_readString.asPacket.parse fun text => (AddressPrefix.ofBytes text).mapError .address

theorem takes_readTableId : Takes 16 readTableId := (takes_readOctets 16).asPacket.map TableId.mk

theorem takes_readMode : Takes 1 RouteControl.readMode :=
  takes_readUInt8.asPacket.parse fun o => (RouteMode.ofOctet o).mapError .defect

theorem takes_readUInt16 : Takes 2 readUInt16 := (takes_readNat 2).map UInt16.ofNat

theorem takes_readUInt32 : Takes 4 readUInt32 := (takes_readNat 4).map UInt32.ofNat

theorem takes_readRouteProp : Takes 1 RouteProp.read := fun b p rest h => by
  obtain ⟨⟨flags, b₁⟩, hflags, h⟩ := exists_of_bind_eq_ok h
  obtain ⟨⟨id, b₂⟩, hid, h⟩ := exists_of_bind_eq_ok h
  obtain ⟨⟨value, b₃⟩, hvalue, h⟩ := exists_of_bind_eq_ok h
  obtain ⟨-, rfl⟩ := Prod.mk.inj (Except.ok.inj h)
  have h₁ := takes_readUInt8.asPacket b flags b₁ hflags
  have h₂ := takes_readUInt16.asPacket b₁ id b₂ hid
  have h₃ := takes_readString.asPacket b₂ value b₃ hvalue
  omega

/-! ## Recorders that spare octets -/

namespace Recorder

variable {α β : Type} {r : Recorder α} {spare spare' depth : ℕ}
  {Holds : α → ℕ → List ℕ → Prop}

/-- What is so of the record of reading from some octets.  What was read holds as many items as were
tried, in lists as long as were announced, and there are octets for all of them and some to spare;
else a few more may have been tried than there are octets, one for each list around the item that
failed. -/
structure Spares (spare depth : ℕ) (Holds : α → ℕ → List ℕ → Prop) (b : Bytes)
    (x : List ReadStep × Except PacketError (α × Bytes)) : Prop where
  ok : ∀ a rest, x.2 = .ok (a, rest) → Holds a (x.1.count .item) (ReadStep.opened x.1) ∧
    x.1.count .item + spare + rest.length ≤ b.length ∧
    ∀ announced left room, .opens announced left room ∈ x.1 → announced ≤ left
  error : ∀ e, x.2 = .error e → x.1.count .item ≤ b.length + depth
  room : ∀ announced left room, .opens announced left room ∈ x.1 → room ≤ left

/-- Whatever it reads from, the recorder's record is so. -/
def Sparing (spare depth : ℕ) (Holds : α → ℕ → List ℕ → Prop) (r : Recorder α) : Prop :=
  ∀ b, Spares spare depth Holds b (r b)

theorem Sparing.mono {depth' : ℕ} (h : r.Sparing spare depth Holds) (hspare : spare' ≤ spare)
    (hdepth : depth ≤ depth') : r.Sparing spare' depth' Holds := by
  intro b
  refine ⟨fun a rest hx => ?_, fun e hx => ?_, (h b).room⟩
  · obtain ⟨hholds, hle, hopens⟩ := (h b).ok a rest hx
    exact ⟨hholds, by omega, hopens⟩
  · have := (h b).error e hx
    omega

theorem Sparing.imp {Holds' : α → ℕ → List ℕ → Prop} (h : r.Sparing spare depth Holds)
    (himp : ∀ a n ns, Holds a n ns → Holds' a n ns) : r.Sparing spare depth Holds' := by
  intro b
  refine ⟨fun a rest hx => ?_, (h b).error, (h b).room⟩
  obtain ⟨hholds, hle, hopens⟩ := (h b).ok a rest hx
  exact ⟨himp _ _ _ hholds, hle, hopens⟩

theorem sparing_pure {a : α} (h : Holds a 0 []) : Sparing 0 depth Holds (pure a) := by
  intro b
  refine ⟨fun a' rest hx => ?_, nofun, nofun⟩
  obtain ⟨rfl, rfl⟩ := Prod.mk.inj (Except.ok.inj hx)
  exact ⟨h, (Nat.zero_add _).le, nofun⟩

theorem sparing_plain {read : Reader PacketError α} (h : Takes spare read) :
    (plain read).Sparing spare depth fun _ n ns => n = 0 ∧ ns = [] := by
  intro b
  refine ⟨fun a rest hx => ⟨⟨rfl, rfl⟩, ?_, nofun⟩, fun e _ => Nat.zero_le _, nofun⟩
  have := h b a rest hx
  simpa [plain] using this

/-- One recorder after the other: the items of both count, and the octets that both spare. -/
theorem Sparing.bind {k : α → Recorder β} {Holds' : β → ℕ → List ℕ → Prop}
    (h : r.Sparing spare depth Holds)
    (hk : ∀ a n ns, Holds a n ns →
      (k a).Sparing spare' depth fun y m ms => Holds' y (n + m) (ns ++ ms)) :
    (r >>= k).Sparing (spare + spare') depth Holds' := by
  intro b
  have hr := h b
  change Spares _ _ _ _ (match r b with
    | (steps, .error e) => (steps, .error e)
    | (steps, .ok (a, b)) => (steps ++ (k a b).1, (k a b).2))
  rcases hrb : r b with ⟨steps, e | ⟨a, b'⟩⟩
  · rw [hrb] at hr
    exact ⟨nofun, fun _ _ => hr.error e rfl, hr.room⟩
  · rw [hrb] at hr
    obtain ⟨hholds, hle, hopens⟩ := hr.ok a b' rfl
    have hnext := hk a _ _ hholds b'
    dsimp only at hle ⊢
    refine ⟨fun y rest hy => ?_, fun e he => ?_, fun announced left room hmem => ?_⟩
    · obtain ⟨hholds', hle', hopens'⟩ := hnext.ok y rest hy
      rw [List.count_append, ReadStep.opened_append]
      refine ⟨hholds', by omega, fun announced left room hmem => ?_⟩
      exact (List.mem_append.mp hmem).elim (hopens _ _ _) (hopens' _ _ _)
    · have := hnext.error e he
      rw [List.count_append]
      omega
    · exact (List.mem_append.mp hmem).elim (hr.room _ _ _) (hnext.room _ _ _)

/-- What is read first without lists has no items. -/
theorem Sparing.after {k : α → Recorder β} {Holds' : β → ℕ → List ℕ → Prop}
    {read : Reader PacketError α}
    (h : Takes spare read) (hk : ∀ a, (k a).Sparing spare' depth Holds') :
    (plain read >>= k).Sparing (spare + spare') depth Holds' := by
  refine (sparing_plain h).bind fun a n ns ⟨hn, hns⟩ => ?_
  subst hn hns
  simpa only [Nat.zero_add, List.nil_append] using hk a

theorem roomFor_le (announced : UInt64) (left : ℕ) : roomFor announced left ≤ left := by
  have hmod : (UInt64.ofNat left).toNat ≤ left := by
    rw [UInt64.toNat_ofNat']
    exact Nat.mod_le _ _
  change (if announced ≤ .ofNat left then announced else .ofNat left).toNat ≤ left
  split_ifs with hle
  · exact (UInt64.le_iff_toNat_le.mp hle).trans hmod
  · exact hmod

/-- A list for whose items there are octets announces no more than that. -/
theorem Sparing.setAside {announced : UInt64}
    (h : r.Sparing spare depth fun a n ns => Holds a n (announced.toNat :: ns))
    (hall : ∀ a n ns, Holds a n ns → announced.toNat ≤ n) :
    (setAside announced >>= fun _ => r).Sparing spare depth Holds := by
  intro b
  change Spares _ _ _ _ (.opens announced.toNat b.length (roomFor announced b.length) :: (r b).1,
    (r b).2)
  refine ⟨fun a rest hx => ?_, fun e hx => ?_, fun announced' left room hmem => ?_⟩
  · obtain ⟨hholds, hle, hopens⟩ := (h b).ok a rest hx
    rw [ReadStep.count_opens]
    refine ⟨hholds, hle, fun announced' left room hmem => ?_⟩
    rcases List.mem_cons.mp hmem with heq | hmem
    · obtain ⟨rfl, rfl, -⟩ := ReadStep.opens.inj heq
      have := hall a _ _ hholds
      omega
    · exact hopens _ _ _ hmem
  · rw [ReadStep.count_opens]
    exact (h b).error e hx
  · rcases List.mem_cons.mp hmem with heq | hmem
    · obtain ⟨-, rfl, rfl⟩ := ReadStep.opens.inj heq
      exact roomFor_le announced b.length
    · exact (h b).room _ _ _ hmem

section Lists

variable {size : α → ℕ} {lists : α → List ℕ}

/-- The octet that an item spares pays for trying it, and where it fails the list owes one. -/
theorem Sparing.attempt (h : r.Sparing 1 depth fun a n ns => n = size a ∧ ns = lists a) :
    (attempt r).Sparing 0 (depth + 1) fun a n ns => n = size a + 1 ∧ ns = lists a := by
  intro b
  change Spares _ _ _ _ (.item :: (r b).1, (r b).2)
  refine ⟨fun a rest hx => ?_, fun e hx => ?_, fun announced left room hmem => ?_⟩
  · obtain ⟨⟨hsize, hlists⟩, hle, hopens⟩ := (h b).ok a rest hx
    rw [List.count_cons_self]
    refine ⟨⟨congrArg (· + 1) hsize, hlists⟩, by omega, fun announced left room hmem => ?_⟩
    exact hopens announced left room ((List.mem_cons.mp hmem).resolve_left (by simp))
  · have := (h b).error e hx
    rw [List.count_cons_self]
    omega
  · exact (h b).room announced left room ((List.mem_cons.mp hmem).resolve_left (by simp))

theorem Sparing.many (h : r.Sparing 1 depth fun a n ns => n = size a ∧ ns = lists a) (n : ℕ) :
    (Recorder.many r n).Sparing 0 (depth + 1) fun as m ms =>
      as.length = n ∧ m = (as.map size).sum + as.length ∧ ms = as.flatMap lists := by
  induction n with
  | zero => exact sparing_pure ⟨rfl, rfl, rfl⟩
  | succ n ih =>
    change Sparing (0 + (0 + 0)) _ _ _
    refine h.attempt.bind fun a k ks ⟨hk, hks⟩ => ih.bind fun as m ms ⟨hlength, hm, hms⟩ => ?_
    refine sparing_pure ⟨congrArg (· + 1) hlength, ?_, ?_⟩
    · rw [List.map_cons, List.sum_cons, List.length_cons]
      omega
    · rw [hks, hms, List.append_nil, List.flatMap_cons]

/-- A list of items that spare octets spares one as well. -/
theorem Sparing.list (h : r.Sparing 1 depth fun a n ns => n = size a ∧ ns = lists a) :
    (Recorder.list r).Sparing 1 (depth + 1) fun as m ms =>
      m = (as.map size).sum + as.length ∧ ms = as.length :: as.flatMap lists := by
  change Sparing (1 + 0) _ _ _
  refine .after takes_readVarUInt.asPacket fun n => ?_
  have hread : (Recorder.setAside n >>= fun _ => Recorder.many r n.toNat).Sparing 0 (depth + 1)
      fun as m ms => as.length = n.toNat ∧ m = (as.map size).sum + as.length ∧
        ms = as.length :: as.flatMap lists := by
    refine .setAside ((h.many n.toNat).imp fun as m ms ⟨hlength, hm, hms⟩ => ?_)
      fun as m ms ⟨hlength, hm, _⟩ => by omega
    exact ⟨hlength, hm, by rw [hlength, hms]⟩
  exact hread.imp fun as m ms ⟨_, hm⟩ => hm

/-- Items without lists of their own. -/
theorem Sparing.listPlain {read : Reader PacketError α} (h : Takes 1 read) :
    (Recorder.list (plain read)).Sparing 1 1 fun as m ms => m = as.length ∧ ms = [as.length] := by
  have hplain : (plain read).Sparing 1 0 fun _ n ns => n = 0 ∧ ns = [] := sparing_plain h
  refine hplain.list.imp fun as m ms hm => ?_
  have hnone : as.flatMap (fun _ => ([] : List ℕ)) = [] :=
    List.flatMap_eq_nil_iff.mpr fun _ _ => rfl
  simpa [hnone] using hm

end Lists

end Recorder

open Recorder

theorem RouteControl.sparing_record :
    record.Sparing 0 2 fun c n ns => n = c.size ∧ ns = c.lists := by
  suffices h : record.Sparing (1 + (16 + (4 + (1 + 0)))) 1
      fun c n ns => n = c.size ∧ ns = c.lists from h.mono (by omega) (by omega)
  refine .after takes_readMode fun mode => .after takes_readTableId fun tableId =>
    .after takes_readUInt32.asPacket fun epoch =>
      (Sparing.listPlain takes_readText).bind fun features n ns ⟨hn, hns⟩ => sparing_pure ?_
  rw [hn, hns]
  exact ⟨rfl, rfl⟩

theorem Announcement.sparing_record :
    record.Sparing 1 1 fun a n ns => n = a.size ∧ ns = a.lists := by
  suffices h : record.Sparing (1 + (1 + (32 + (1 + 0)))) 1
      fun a n ns => n = a.size ∧ ns = a.lists from h.mono (by omega) (le_refl _)
  refine .after takes_readAddressPrefix fun target =>
    (Sparing.listPlain takes_readAddress).bind fun path n ns ⟨hn, hns⟩ =>
      .after (takes_readOctets 32).asPacket fun auth =>
        (Sparing.listPlain takes_readRouteProp).bind fun props m ms ⟨hm, hms⟩ => sparing_pure ?_
  rw [hn, hm, hns, hms]
  exact ⟨rfl, rfl⟩

theorem RouteUpdate.sparing_record :
    record.Sparing 0 2 fun u n ns => n = u.size ∧ ns = u.lists := by
  suffices h : record.Sparing (16 + (4 + (4 + (4 + (4 + (1 + (1 + (1 + 0)))))))) 2
      fun u n ns => n = u.size ∧ ns = u.lists from h.mono (by omega) (le_refl _)
  refine .after takes_readTableId fun tableId => .after takes_readUInt32.asPacket fun current =>
    .after takes_readUInt32.asPacket fun first => .after takes_readUInt32.asPacket fun last =>
      .after takes_readUInt32.asPacket fun holdDown => .after takes_readAddress fun speaker =>
        Announcement.sparing_record.list.bind fun announced n ns ⟨hn, hns⟩ =>
          ((Sparing.listPlain takes_readAddressPrefix).mono (le_refl _) (by omega)).bind
            fun withdrawn m ms ⟨hm, hms⟩ => sparing_pure ?_
  rw [hn, hm, hns, hms]
  exact ⟨rfl, rfl⟩

/-! ## Messages -/

/-- Reads a message that a packet to this destination carries, and keeps a record. -/
def recordMessage {α : Type} (destination : Address) (record : Recorder α) (p : Prepare) :
    List ReadStep × Except PacketError α :=
  match checkMessage destination p with
  | .error e => ([], .error (.defect e))
  | .ok () => ((record p.data).1, (record p.data).2.map Prod.fst)

/-- The bounds on the record of reading a message from some octets: no more tries than octets, but
for one in a list and one in a list around it; nothing is read where a list announces more than
there is, and no more room is set aside; and a message holds just the items that were tried, not
more than octets, in lists just as long as were announced. -/
structure Bounded {α : Type} (size : α → ℕ) (lists : α → List ℕ) (data : Bytes)
    (steps : List ReadStep) (x : Except PacketError α) : Prop where
  tries : steps.count .item ≤ data.length + 2
  refuses : ∀ announced left room, .opens announced left room ∈ steps → left < announced →
    ∃ e, x = .error e
  room : ∀ announced left room, .opens announced left room ∈ steps → room ≤ left
  size : ∀ a, x = .ok a → steps.count .item = size a ∧ size a ≤ data.length
  lists : ∀ a, x = .ok a → ReadStep.opened steps = lists a

theorem bounded_recordMessage {α : Type} {size : α → ℕ} {lists : α → List ℕ}
    {record : Recorder α} (h : record.Sparing 0 2 fun a n ns => n = size a ∧ ns = lists a)
    (destination : Address) (p : Prepare) :
    Bounded size lists p.data (recordMessage destination record p).1
      (recordMessage destination record p).2 := by
  unfold recordMessage
  cases checkMessage destination p with
  | error e => exact ⟨Nat.zero_le _, nofun, nofun, nofun, nofun⟩
  | ok u =>
    have hdata := h p.data
    dsimp only
    cases hx : (record p.data).2 with
    | error e =>
      exact ⟨hdata.error e hx, fun _ _ _ _ _ => ⟨e, rfl⟩, hdata.room, nofun, nofun⟩
    | ok y =>
      obtain ⟨⟨hsize, hlists⟩, hle, hopens⟩ := hdata.ok y.1 y.2 hx
      refine ⟨by omega, fun announced left room hmem hlt => ?_, hdata.room, fun a ha => ?_,
        fun a ha => ?_⟩
      · exact absurd (hopens announced left room hmem) (Nat.not_le.mpr hlt)
      · obtain rfl := Except.ok.inj ha
        exact ⟨hsize, by omega⟩
      · obtain rfl := Except.ok.inj ha
        exact hlists

theorem recordMessage_snd {α : Type} {record : Recorder α} {read : Reader PacketError α}
    (h : record.Reads read) (destination : Address) (p : Prepare) :
    (recordMessage destination record p).2 = do
      (checkMessage destination p).mapError .defect
      let (a, _) ← read p.data
      return a := by
  unfold recordMessage
  cases checkMessage destination p with
  | error e => rfl
  | ok u =>
    dsimp only
    rw [h p.data]
    cases read p.data <;> rfl

/-- A packet that has expired is refused before anything of its data is read. -/
theorem expired_or_eq {α : Type} (now : Instant) (p : Prepare) (x : Except PacketError α) :
    (do
      (checkExpiry now p).mapError .defect
      x) = if p.expiresAt < now then .error (.defect .expired) else x := by
  unfold checkExpiry
  split_ifs <;> rfl

/-- However much the lists in a packet's data announce, reading a request or an update tries no more
items than there are octets and two, refuses a list that announces more items than octets are left,
sets aside no more room than that, and yields no more items than there are octets, in the lists that
have announced them. -/
theorem reading_bounded (p : Prepare) :
    let control := recordMessage controlDestination RouteControl.record p
    let update := recordMessage updateDestination RouteUpdate.record p
    (Bounded RouteControl.size RouteControl.lists p.data control.1 control.2 ∧
      control.2 = RouteControl.ofPrepareAnyTime p ∧
      ∀ now, RouteControl.ofPrepare now p
        = if p.expiresAt < now then .error (.defect .expired) else control.2) ∧
    (Bounded RouteUpdate.size RouteUpdate.lists p.data update.1 update.2 ∧
      update.2 = RouteUpdate.ofPrepareAnyTime p ∧
      ∀ now, RouteUpdate.ofPrepare now p
        = if p.expiresAt < now then .error (.defect .expired) else update.2) := by
  intro control update
  have hcontrol : control.2 = RouteControl.ofPrepareAnyTime p :=
    recordMessage_snd RouteControl.reads_record controlDestination p
  have hupdate : update.2 = RouteUpdate.ofPrepareAnyTime p :=
    recordMessage_snd RouteUpdate.reads_record updateDestination p
  refine ⟨⟨bounded_recordMessage RouteControl.sparing_record _ p, hcontrol, fun now => ?_⟩,
    ⟨bounded_recordMessage RouteUpdate.sparing_record _ p, hupdate, fun now => ?_⟩⟩
  · rw [hcontrol]
    exact expired_or_eq now p _
  · rw [hupdate]
    exact expired_or_eq now p _

/-- An update whose data ends after the announcement of as many offers as can be announced. -/
example : (RouteUpdate.record (List.replicate 32 0 ++ writeString (Utf8.encode "test.alice")
    ++ writeVarUInt 0xffffffffffffffff)).1 = [.opens 0xffffffffffffffff 0 0, .item] := by
  decide +kernel

end IlpConnector
