import IlpConnector.Bytes.Utf8
import IlpConnector.Dict
import IlpConnector.Text.Basic

/-!
# Addresses and prefixes

An address names a place in the network by segments between dots, from the allocation scheme down:
`test.alice.paul`.  A prefix stands for all addresses that continue it segment by segment, and may
be a scheme alone.

`AddressPrefix.Matches` is decided on the text: an address that starts with the prefix, and goes on
with a dot if it goes on at all.  Of the prefixes that an address matches, the one with the most
segments counts (`deepestMatch`).
-/

namespace IlpConnector

/-- Why a text is neither an address nor a prefix. -/
inductive AddressError where
  | tooLong (length : Nat)
  | invalidScheme (segment : String)
  | invalidSegment (segment : String)
  | missingSegments
  | notText
deriving DecidableEq, Repr

def AddressError.message : AddressError → String
  | tooLong n => s!"address is longer than 1023 bytes (got {n})"
  | invalidScheme s => "invalid address scheme: " ++ Text.quoted s
  | invalidSegment s => "invalid address segment: " ++ Text.quoted s
  | missingSegments => "address must contain at least two segments"
  | notText => "address is not valid UTF-8"

namespace Address

/-- The largest number of octets in an address. -/
def maxLength : Nat := 1023

/-- The allocation schemes, one of which every address starts with. -/
def schemes : List (List Char) :=
  ["g", "private", "example", "peer", "self", "test", "test1", "test2", "test3", "local"].map
    String.toList

/-- The texts between the dots of a text. -/
def splitDots : List Char → List (List Char)
  | [] => [[]]
  | c :: cs =>
    if c = '.' then [] :: splitDots cs
    else
      match splitDots cs with
      | [] => [[c]]
      | s :: ss => (c :: s) :: ss

def isSegmentChar (c : Char) : Bool :=
  c.isAlphanum || c = '_' || c = '-' || c = '~'

def isSegment (s : List Char) : Bool :=
  !s.isEmpty && s.all isSegmentChar

/-- The first segment that keeps a text from being an address. -/
def firstDefect (segments : List (List Char)) : Option AddressError :=
  match segments with
  | [] => none
  | scheme :: rest =>
    if schemes.contains scheme then
      (rest.find? (!isSegment ·)).map fun s => .invalidSegment (String.ofList s)
    else some (.invalidScheme (String.ofList scheme))

/-- What keeps a text from being an address with so many segments at least. -/
def defect (minSegments : Nat) (s : String) : Option AddressError :=
  if maxLength < s.utf8ByteSize then some (.tooLong s.utf8ByteSize)
  else
    match firstDefect (splitDots s.toList) with
    | some e => some e
    | none => if (splitDots s.toList).length < minSegments then some .missingSegments else none

end Address

/-- A valid address. -/
structure Address where
  text : String
  valid : Address.defect 2 text = none
deriving DecidableEq

/-- A valid prefix: like an address, or a scheme alone. -/
structure AddressPrefix where
  text : String
  valid : Address.defect 1 text = none
deriving DecidableEq

/-- The text `whole` is `front`, or continues it after a dot. -/
def continues (front whole : List Char) : Bool :=
  front.isPrefixOf whole && ((whole.drop front.length).head?.all (· = '.'))

namespace Address

def ofText (s : String) : Except AddressError Address :=
  match h : defect 2 s with
  | none => .ok ⟨s, h⟩
  | some e => .error e

def ofBytes (b : Bytes) : Except AddressError Address :=
  match Utf8.decode b with
  | .ok s => ofText s
  | .error _ => .error .notText

def chars (a : Address) : List Char := a.text.toList

def bytes (a : Address) : Bytes := Utf8.encode a.text

def segments (a : Address) : List String := (splitDots a.chars).map String.ofList

/-- The allocation scheme. -/
def scheme (a : Address) : String := a.segments.headD ""

/-- The address with more segments after a dot. -/
def withSuffix (a : Address) (suffix : String) : Except AddressError Address :=
  ofText (a.text ++ "." ++ suffix)

def debugText (a : Address) : String := "Address(" ++ Text.quoted a.text ++ ")"

theorem defect_one_of_two {s : String} (h : defect 2 s = none) : defect 1 s = none := by
  unfold defect at h ⊢
  by_cases hlen : maxLength < s.utf8ByteSize
  · simp [hlen] at h
  · rw [if_neg hlen] at h ⊢
    cases hd : firstDefect (splitDots s.toList) with
    | some e => simp [hd] at h
    | none =>
      by_cases hn : (splitDots s.toList).length < 2
      · simp [hd, hn] at h
      · simp [show ¬(splitDots s.toList).length < 1 by omega]

/-- An address as the prefix of the addresses below it. -/
def toPrefix (a : Address) : AddressPrefix := ⟨a.text, defect_one_of_two a.valid⟩

/-- The address of a node that does not know its own. -/
def unsetOperator : Address where
  text := "private.unset-operator-address"
  valid := by decide +kernel

/-- The address a node puts on what it sends. -/
def orUnset (a : Option Address) : Address :=
  a.getD unsetOperator

end Address

namespace AddressPrefix

def ofText (s : String) : Except AddressError AddressPrefix :=
  match h : Address.defect 1 s with
  | none => .ok ⟨s, h⟩
  | some e => .error e

def ofBytes (b : Bytes) : Except AddressError AddressPrefix :=
  match Utf8.decode b with
  | .ok s => ofText s
  | .error _ => .error .notText

def chars (p : AddressPrefix) : List Char := p.text.toList

def bytes (p : AddressPrefix) : Bytes := Utf8.encode p.text

/-- The number of segments. -/
def depth (p : AddressPrefix) : Nat := (Address.splitDots p.chars).length

/-- The address is the prefix or lies under it. -/
def Matches (p : AddressPrefix) (a : Address) : Prop := continues p.chars a.chars

instance (p : AddressPrefix) (a : Address) : Decidable (p.Matches a) :=
  inferInstanceAs (Decidable (continues p.chars a.chars = true))

/-- The other prefix is this one or lies under it. -/
def Covers (p q : AddressPrefix) : Prop := continues p.chars q.chars

instance (p q : AddressPrefix) : Decidable (p.Covers q) :=
  inferInstanceAs (Decidable (continues p.chars q.chars = true))

def debugText (p : AddressPrefix) : String := "AddressPrefix(" ++ Text.quoted p.text ++ ")"

instance : TextKey AddressPrefix where
  keyText := text
  keyText_inj := fun {a b} h => by cases a; cases b; simp_all

end AddressPrefix

/-- The entry with the deepest prefix that the address matches; of several equally deep ones the last
one. -/
def deepestMatch {α : Type} (target : α → AddressPrefix) (a : Address) (entries : List α) :
    Option α :=
  (entries.filter fun e => (target e).Matches a).foldl
    (fun best e =>
      match best with
      | none => some e
      | some b => if (target b).depth ≤ (target e).depth then some e else some b)
    none

end IlpConnector
