import ArrayContract.Text.Hidden

/-! # Quoted text

`quoted` writes a text between quotes so that every character can be told: quotes, backslashes and
the common controls by a letter after a backslash, characters that their glyph does not show by
their number, and all else as it is. -/

namespace ArrayContract.Text

/-- A number in hexadecimal, between braces after the letter `u`. -/
def byNumber (c : Char) : List Char :=
  '\\' :: 'u' :: '\x7b' :: Nat.toDigits 16 c.toNat ++ ['\x7d']

/-- A character inside quotes. -/
def quotedChar (c : Char) : List Char :=
  if c = '"' then ['\\', '"']
  else if c = '\\' then ['\\', '\\']
  else if c = '\n' then ['\\', 'n']
  else if c = '\r' then ['\\', 'r']
  else if c = '\t' then ['\\', 't']
  else if c = '\x00' then ['\\', '0']
  else if c.toNat < 127 ∧ ' ' ≤ c then [c]
  else if isHidden c then byNumber c
  else [c]

/-- A text between quotes. -/
def quoted (s : String) : String :=
  String.ofList ('"' :: s.toList.flatMap quotedChar ++ ['"'])

end ArrayContract.Text
