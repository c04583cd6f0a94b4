import IlpConnector.Bytes.Hex
import IlpConnector.Text.Visible

/-!
# Blanks and quotes

Texts are read without the blanks at their ends, where white space is what Unicode gives the
property of that name: the ASCII blanks and line ends, the next-line control, the no-break space and
the spaces and separators of the general punctuation.

Inside a message a text is shown between quotes, so that its ends and every character of it can be
seen.  Quotes, backslashes and the common controls are written with a backslash; a character that
does not show by itself is written as its code point in hexadecimal.
-/

namespace IlpConnector.Text

def isBlank (c : Char) : Bool :=
  let n := c.toNat
  (9 ≤ n && n ≤ 13) || n == 32 || n == 0x85 || n == 0xA0 || n == 0x1680
    || (0x2000 ≤ n && n ≤ 0x200A) || n == 0x2028 || n == 0x2029 || n == 0x202F || n == 0x205F
    || n == 0x3000

/-- A text without the blanks at its two ends. -/
def trimChars (cs : List Char) : List Char :=
  ((cs.dropWhile isBlank).reverse.dropWhile isBlank).reverse

def trim (s : String) : String :=
  String.ofList (trimChars s.toList)

/-- The form of a character between quotes. -/
def quotedChar (c : Char) : List Char :=
  if c = '\x00' then ['\\', '0']
  else if c = '\t' then ['\\', 't']
  else if c = '\r' then ['\\', 'r']
  else if c = '\n' then ['\\', 'n']
  else if c = '"' ∨ c = '\\' then ['\\', c]
  else if isVisible c && !isCombining c then [c]
  else "\\u\x7b".toList ++ Nat.toDigits 16 c.toNat ++ ['}']

def quoted (s : String) : String :=
  String.ofList ('"' :: s.toList.flatMap quotedChar ++ ['"'])

end IlpConnector.Text
