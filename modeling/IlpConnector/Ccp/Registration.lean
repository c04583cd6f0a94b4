import IlpConnector.Link.Basic

/-!
# Registrations

Routes are exchanged with an account's neighbour from one registration of the account to the next, or
to its removal.  What has been set going for one registration goes on with it all the same, so what
belonged to former ones is kept, and is found by its number.
-/

namespace IlpConnector

structure Registration where
  /-- The account, under which the neighbour is known. -/
  peer : AccountId
  link : LinkRef
  /-- No other registration has this number. -/
  serial : Nat
deriving DecidableEq

namespace Registration

variable {α : Type} (of : α → Registration)

/-- What belongs to a registration of an account: what the account has at present, or has had. -/
def find? (present : Option α) (former : List α) (account : AccountId) (serial : Nat) : Option α :=
  (present.toList ++ former).find? fun x => (of x).peer = account && (of x).serial = serial

/-- Puts something else in place of what belonged to the same registration. -/
def replace (former : List α) (x : α) : List α :=
  former.map fun y => if of y = of x then x else y

variable {of}

theorem find?_eq_some {present : Option α} {former : List α} {account : AccountId} {serial : Nat}
    {x : α} (h : find? of present former account serial = some x) :
    (of x).peer = account ∧ (of x).serial = serial := by
  simpa using List.find?_some h

/-- What an account has at present is found. -/
theorem find?_present {former : List α} {account : AccountId} {x : α} (h : (of x).peer = account) :
    find? of (some x) former account (of x).serial = some x :=
  List.find?_cons_of_pos (by simp [h])

/-- What is there is found, or else something former is. -/
theorem find?_cases {present : Option α} {former : List α} {account : AccountId} {serial : Nat}
    {x : α} (h : find? of present former account serial = some x) :
    present = some x ∨ x ∈ former := by
  cases present with
  | none => exact Or.inr (List.mem_of_find?_eq_some h)
  | some y =>
    rcases List.mem_cons.mp (List.mem_of_find?_eq_some h) with rfl | hx
    · exact Or.inl rfl
    · exact Or.inr hx

end Registration

end IlpConnector
