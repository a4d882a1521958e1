import ArrayContract.Json.Basic

/-! # Reading JSON

`Json.ofText?` reads one strict JSON document with blanks around it. A string is read in two steps:
`pieces?` takes its escapes apart, and `join?` pairs the surrogates; the first decides whether the
text is a document, the second whether the string has a text. -/

namespace ArrayContract.Json

/-- The blanks between tokens. -/
def isBlank (c : Char) : Bool := c == ' ' || c == '\n' || c == '\r' || c == '\t'

def skipBlanks (cs : List Char) : List Char := cs.dropWhile isBlank

/-! ## Strings -/

/-- A part of a string: a character, or a code unit written in hexadecimal. -/
inductive Piece
  | char (c : Char)
  | unit (n : Nat)

/-- The value of a hexadecimal digit. -/
def hexDigit? (c : Char) : Option Nat :=
  if '0' ≤ c ∧ c ≤ '9' then some (c.toNat - '0'.toNat)
  else if 'a' ≤ c ∧ c ≤ 'f' then some (c.toNat - 'a'.toNat + 10)
  else if 'A' ≤ c ∧ c ≤ 'F' then some (c.toNat - 'A'.toNat + 10)
  else none

/-- The code unit of four hexadecimal digits. -/
def unit? (a b c d : Char) : Option Nat := do
  let a ← hexDigit? a
  let b ← hexDigit? b
  let c ← hexDigit? c
  let d ← hexDigit? d
  pure (((a * 16 + b) * 16 + c) * 16 + d)

/-- The character that a letter after a backslash stands for. -/
def escape? : Char → Option Char
  | '"' => some '"'
  | '\\' => some '\\'
  | '/' => some '/'
  | 'b' => some '\x08'
  | 'f' => some '\x0c'
  | 'n' => some '\n'
  | 'r' => some '\r'
  | 't' => some '\t'
  | _ => none

/-- Puts a part before those of the rest of a string. -/
def push (p : Piece) (rest : Option (List Piece × List Char)) :
    Option (List Piece × List Char) :=
  rest.map fun (ps, behind) => (p :: ps, behind)

/-- The parts of a string up to its closing quote, and the text behind it. -/
def pieces? : List Char → Option (List Piece × List Char)
  | [] => none
  | '"' :: rest => some ([], rest)
  | '\\' :: 'u' :: a :: b :: c :: d :: rest =>
    match unit? a b c d with
    | some n => push (.unit n) (pieces? rest)
    | none => none
  | '\\' :: c :: rest =>
    match escape? c with
    | some c => push (.char c) (pieces? rest)
    | none => none
  | c :: rest => if c < ' ' then none else push (.char c) (pieces? rest)

/-- The text of a string's parts; a surrogate has to be one of a pair. -/
def join? : List Piece → Option (List Char)
  | [] => some []
  | .char c :: ps => (join? ps).map (c :: ·)
  | .unit high :: ps =>
    if high < 0xd800 ∨ 0xdfff < high then (join? ps).map (Char.ofNat high :: ·)
    else
      match ps with
      | .unit low :: ps =>
        if high < 0xdc00 ∧ 0xdc00 ≤ low ∧ low ≤ 0xdfff then
          (join? ps).map (Char.ofNat (0x10000 + (high - 0xd800) * 0x400 + (low - 0xdc00)) :: ·)
        else none
      | _ => none

/-- The text of a string's parts, if it has one. -/
def stringOf? (ps : List Piece) : Option String := (join? ps).map String.ofList

/-! ## Numbers -/

def isDigit (c : Char) : Bool := '0' ≤ c && c ≤ '9'

def digitOf (c : Char) : Nat := c.toNat - '0'.toNat

/-- At least one digit, and the text behind the digits. -/
def digits? (cs : List Char) : Option (List Nat × List Char) :=
  match cs.takeWhile isDigit with
  | [] => none
  | ds => some (ds.map digitOf, cs.dropWhile isDigit)

/-- The number that digits spell. -/
def valueOf (ds : List Nat) : Nat := ds.foldl (fun n d => 10 * n + d) 0

/-- The whole part of a number, which starts with zero only if it is zero. -/
def whole? (cs : List Char) : Option (Nat × List Char) :=
  match digits? cs with
  | some (0 :: _ :: _, _) => none
  | some (ds, rest) => some (valueOf ds, rest)
  | none => none

/-- The digits after the point, if there is one. -/
def fraction? : List Char → Option (List Nat × List Char)
  | '.' :: cs => digits? cs
  | cs => some ([], cs)

/-- The sign of an exponent. -/
def exponentSign : List Char → Bool × List Char
  | '-' :: cs => (true, cs)
  | '+' :: cs => (false, cs)
  | cs => (false, cs)

/-- The exponent, if there is one. -/
def exponent? : List Char → Option (Option Int × List Char)
  | c :: cs =>
    if c = 'e' ∨ c = 'E' then do
      let (negative, cs) := exponentSign cs
      let (ds, rest) ← digits? cs
      let n : Int := valueOf ds
      pure (some (if negative then -n else n), rest)
    else some (none, c :: cs)
  | [] => some (none, [])

/-- The sign of a number. -/
def sign : List Char → Bool × List Char
  | '-' :: cs => (true, cs)
  | cs => (false, cs)

/-- A number at the head of a text. -/
def number? (cs : List Char) : Option (Number × List Char) := do
  let (negative, cs) := sign cs
  let (whole, cs) ← whole? cs
  let (fraction, cs) ← fraction? cs
  let (exponent, cs) ← exponent? cs
  pure (⟨negative, whole, fraction, exponent⟩, cs)

/-! ## Documents -/

/-- The object of some members; a name without a text makes it unreadable. -/
def objectOf (members : List (Option String × Json)) : Json :=
  match members.mapM fun (name?, v) => name?.map (·, v) with
  | some ms => object ms
  | none => unreadable

mutual

/-- A value at the head of a text. -/
def value? : Nat → List Char → Option (Json × List Char)
  | 0, _ => none
  | fuel + 1, cs =>
    match cs with
    | 'n' :: 'u' :: 'l' :: 'l' :: rest => some (null, rest)
    | 't' :: 'r' :: 'u' :: 'e' :: rest => some (bool true, rest)
    | 'f' :: 'a' :: 'l' :: 's' :: 'e' :: rest => some (bool false, rest)
    | '"' :: rest => do
      let (ps, rest) ← pieces? rest
      pure (((stringOf? ps).map string).getD unreadable, rest)
    | '[' :: rest =>
      match skipBlanks rest with
      | ']' :: rest => some (array [], rest)
      | rest => do
        let (vs, rest) ← items? fuel rest
        pure (array vs, rest)
    | '{' :: rest =>
      match skipBlanks rest with
      | '}' :: rest => some (object [], rest)
      | rest => do
        let (ms, rest) ← members? fuel rest
        pure (objectOf ms, rest)
    | cs => do
      let (n, rest) ← number? cs
      pure (number n, rest)

/-- The items of an array up to its closing bracket, at least one. -/
def items? : Nat → List Char → Option (List Json × List Char)
  | 0, _ => none
  | fuel + 1, cs => do
    let (v, rest) ← value? fuel cs
    match skipBlanks rest with
    | ']' :: rest => pure ([v], rest)
    | ',' :: rest =>
      let (vs, rest) ← items? fuel (skipBlanks rest)
      pure (v :: vs, rest)
    | _ => none

/-- The members of an object up to its closing brace, at least one. -/
def members? : Nat → List Char → Option (List (Option String × Json) × List Char)
  | 0, _ => none
  | fuel + 1, cs =>
    match cs with
    | '"' :: rest => do
      let (ps, rest) ← pieces? rest
      match skipBlanks rest with
      | ':' :: rest =>
        let (v, rest) ← value? fuel (skipBlanks rest)
        match skipBlanks rest with
        | '}' :: rest => pure ([(stringOf? ps, v)], rest)
        | ',' :: rest =>
          let (ms, rest) ← members? fuel (skipBlanks rest)
          pure ((stringOf? ps, v) :: ms, rest)
        | _ => none
      | _ => none
    | _ => none

end

/-- A document without blanks before it. The readers call each other at most twice before they take
a character. -/
def document? (cs : List Char) : Option Json :=
  match value? (2 * cs.length + 1) cs with
  | some (v, rest) => if (skipBlanks rest).isEmpty then some v else none
  | none => none

/-- The JSON document that a text is. -/
def ofText? (text : String) : Option Json := document? (skipBlanks text.toList)

end ArrayContract.Json
