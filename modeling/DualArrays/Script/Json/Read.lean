import DualArrays.Script.Json

/-!
# Reading JSON text

`Json.read` reads one JSON document (RFC 8259) from a text, with blanks (space, tab, line
feed, carriage return) around it, or says why the text is not one and where.

* A number is a machine word when it is a non-negative integer below `2 ^ 64`, a negative
  integer when it is an integer from `-2 ^ 63` to `-1`, and otherwise the binary64 value
  nearest to it (`-0` is `-0.0`); a number whose nearest value is infinite is refused, and
  an exponent past `2 ^ 31 - 1` is refused for a non-zero number and gives zero otherwise.
* A string may not hold a control character; a `\u` escape of a surrogate must be a
  leading one followed at once by an escaped trailing one.
* An object keeps one member per key, the last one given, in the order of the keys.
* At most 127 arrays and objects may stand inside each other.

Reading stops at the first fault. A fault found on the character just read is reported at
the offset after it; a fault found by looking at the next character without reading it is
reported one byte further, or at the end of the text. `SyntaxError.describe` names the
fault with the line and column of that offset, the column counting the bytes since the
last line break.
-/

namespace DualArrays

namespace Json

/-- What is wrong with a text that is not a JSON document. -/
inductive SyntaxFault where
  | eofInList
  | eofInObject
  | eofInString
  | eofInValue
  | expectedColon
  | expectedListCommaOrEnd
  | expectedObjectCommaOrEnd
  | expectedIdent
  | expectedValue
  | invalidEscape
  | invalidNumber
  | numberOutOfRange
  | controlCharacter
  | keyMustBeString
  | loneSurrogate
  | trailingComma
  | trailingCharacters
  | unexpectedEndOfHexEscape
  | recursionLimit
  deriving DecidableEq, Repr

def SyntaxFault.text : SyntaxFault → String
  | .eofInList => "EOF while parsing a list"
  | .eofInObject => "EOF while parsing an object"
  | .eofInString => "EOF while parsing a string"
  | .eofInValue => "EOF while parsing a value"
  | .expectedColon => "expected `:`"
  | .expectedListCommaOrEnd => "expected `,` or `]`"
  | .expectedObjectCommaOrEnd => "expected `,` or `\x7d`"
  | .expectedIdent => "expected ident"
  | .expectedValue => "expected value"
  | .invalidEscape => "invalid escape"
  | .invalidNumber => "invalid number"
  | .numberOutOfRange => "number out of range"
  | .controlCharacter => "control character (\\u0000-\\u001F) found while parsing a string"
  | .keyMustBeString => "key must be a string"
  | .loneSurrogate => "lone leading surrogate in hex escape"
  | .trailingComma => "trailing comma"
  | .trailingCharacters => "trailing characters"
  | .unexpectedEndOfHexEscape => "unexpected end of hex escape"
  | .recursionLimit => "recursion limit exceeded"

structure SyntaxError where
  fault : SyntaxFault
  offset : Nat
  deriving DecidableEq, Repr

/-- The line, from 1, and the column of a byte offset in a text: the column is the number
of bytes between the last line break before the offset and the offset. -/
def lineColumn (s : String) (offset : Nat) : Nat × Nat :=
  let step (st : Nat × Nat × Nat) (c : Char) : Nat × Nat × Nat :=
    let (pos, lines, lineStart) := st
    if c = '\n' ∧ pos < offset then (pos + 1, lines + 1, pos + 1)
    else (pos + c.utf8Size, lines, lineStart)
  let (_, lines, lineStart) := s.toList.foldl step (0, 0, 0)
  (lines + 1, offset - lineStart)

def SyntaxError.describe (s : String) (e : SyntaxError) : String :=
  let (line, column) := lineColumn s e.offset
  e.fault.text ++ " at line " ++ toString line ++ " column " ++ toString column

structure Cursor where
  rest : List Char
  offset : Nat

abbrev Reader := StateT Cursor (Except SyntaxError)

namespace Reader

def peek : Reader (Option Char) := do return (← get).rest.head?

def eat : Reader Unit :=
  modify fun c =>
    match c.rest with
    | ch :: r => ⟨r, c.offset + ch.utf8Size⟩
    | [] => c

def next : Reader (Option Char) := do
  let c ← peek
  eat
  return c

def fail {α : Type} (f : SyntaxFault) : Reader α := do
  throw ⟨f, (← get).offset⟩

/-- Fails with a fault found by looking at the next character: reported one byte past the
point reached, or at the end of the text. -/
def failAhead {α : Type} (f : SyntaxFault) : Reader α := do
  let c ← get
  throw ⟨f, if c.rest.isEmpty then c.offset else c.offset + 1⟩

def isBlank (c : Char) : Bool := c == ' ' || c == '\n' || c == '\t' || c == '\r'

def skipBlank : Reader (Option Char) := do
  let c ← get
  let blanks := c.rest.takeWhile isBlank
  let rest := c.rest.drop blanks.length
  set (⟨rest, c.offset + blanks.length⟩ : Cursor)
  return rest.head?

def digits : Reader (List Char) := do
  let c ← get
  let ds := c.rest.takeWhile Char.isDigit
  set (⟨c.rest.drop ds.length, c.offset + ds.length⟩ : Cursor)
  return ds

def ident (word : List Char) : Reader Unit :=
  word.forM fun expected => do
    match ← next with
    | none => fail .eofInValue
    | some c => if c ≠ expected then fail .expectedIdent

def hexValue (c : Char) : Option Nat :=
  if '0' ≤ c ∧ c ≤ '9' then some (c.toNat - '0'.toNat)
  else if 'a' ≤ c ∧ c ≤ 'f' then some (c.toNat - 'a'.toNat + 10)
  else if 'A' ≤ c ∧ c ≤ 'F' then some (c.toNat - 'A'.toNat + 10)
  else none

/-- Reads the four hexadecimal digits of a `\u` escape as one code unit. The four bytes
are read before they are checked; fewer than four bytes left is the end of the string. -/
def hexEscape : Reader Nat := do
  let c ← get
  let left := (c.rest.map Char.utf8Size).foldl (· + ·) 0
  if left < 4 then throw ⟨.eofInString, c.offset + left⟩
  match c.rest with
  | a :: b :: d :: e :: r =>
    match [a, b, d, e].foldlM (fun acc ch => (hexValue ch).map (acc * 16 + ·)) 0 with
    | some n =>
      set (⟨r, c.offset + 4⟩ : Cursor)
      return n
    | none => throw ⟨.invalidEscape, c.offset + 4⟩
  | _ => throw ⟨.invalidEscape, c.offset + 4⟩

/-- Reads a `\u` escape after its `u`: a code unit outside the surrogates, or a leading
surrogate with an escaped trailing surrogate, which together give one character. -/
def unicodeEscape (acc : List Char) : Reader (List Char) := do
  let n ← hexEscape
  if 0xDC00 ≤ n ∧ n ≤ 0xDFFF then fail .loneSurrogate
  if n < 0xD800 ∨ 0xDBFF < n then return Char.ofNat n :: acc
  match ← peek with
  | none => fail .eofInString
  | some '\\' => eat
  | some _ =>
    eat
    fail .unexpectedEndOfHexEscape
  match ← peek with
  | none => fail .eofInString
  | some 'u' => eat
  | some _ =>
    eat
    fail .unexpectedEndOfHexEscape
  let low ← hexEscape
  if low < 0xDC00 ∨ 0xDFFF < low then fail .loneSurrogate
  return Char.ofNat (0x10000 + (n - 0xD800) * 0x400 + (low - 0xDC00)) :: acc

def escape (acc : List Char) : Reader (List Char) := do
  match ← next with
  | none => fail .eofInString
  | some '"' => return '"' :: acc
  | some '\\' => return '\\' :: acc
  | some '/' => return '/' :: acc
  | some 'b' => return '\x08' :: acc
  | some 'f' => return '\x0c' :: acc
  | some 'n' => return '\n' :: acc
  | some 'r' => return '\r' :: acc
  | some 't' => return '\t' :: acc
  | some 'u' => unicodeEscape acc
  | some _ => fail .invalidEscape

/-- Reads the characters of a string up to and with its closing quote; `fuel` bounds the
characters left. -/
def stringBody (fuel : Nat) (acc : List Char) : Reader String :=
  match fuel with
  | 0 => fail .eofInString
  | fuel + 1 => do
    match ← next with
    | none => fail .eofInString
    | some '"' => return String.ofList acc.reverse
    | some '\\' => stringBody fuel (← escape acc)
    | some c => if c.toNat < 0x20 then fail .controlCharacter else stringBody fuel (c :: acc)

def string : Reader String := do
  stringBody ((← get).rest.length + 1) []

def digitsValue (ds : List Char) : Nat :=
  ds.foldl (fun acc c => 10 * acc + (c.toNat - '0'.toNat)) 0

def maxExponent : Nat := Nat.pow 2 31 - 1

def exponentOverflow (ds : List Char) : Option Nat :=
  (List.range ds.length).find? fun k => digitsValue (ds.take (k + 1)) > maxExponent

def real (positive : Bool) (m : Nat) (e : Int) : Reader JsonNumber := do
  let x := Decimal.nearestBinary64 m e
  if x.isInf then fail .numberOutOfRange
  return .real (if positive then x else -x)

def exponent (positive : Bool) (m : Nat) (e₀ : Int) : Reader JsonNumber := do
  let negative ← match ← peek with
    | some '+' => do eat; pure false
    | some '-' => do eat; pure true
    | _ => pure false
  let start := (← get).offset
  match ← next with
  | none => fail .eofInValue
  | some d =>
    if !d.isDigit then fail .invalidNumber
    let ds := d :: (← digits)
    match exponentOverflow ds with
    | some k =>
      if m ≠ 0 ∧ !negative then throw ⟨.numberOutOfRange, start + k + 1⟩
      return .real (if positive then 0 else -0)
    | none =>
      let e := (digitsValue ds : Int)
      real positive m (if negative then e₀ - e else e₀ + e)

def integer (positive : Bool) (m : Nat) : Reader JsonNumber :=
  if positive then
    if m < Nat.pow 2 64 then pure (.word m) else real positive m 0
  else if 0 < m ∧ m ≤ Nat.pow 2 63 then pure (.negative m)
  else real positive m 0

/-- Reads what follows the integer digits of a number: a fraction, an exponent, both or
neither. -/
def afterInteger (positive : Bool) (intDigits : List Char) : Reader JsonNumber := do
  let m := digitsValue intDigits
  match ← peek with
  | some '.' =>
    eat
    let fs ← digits
    if fs.isEmpty then
      match ← peek with
      | some _ => failAhead .invalidNumber
      | none => failAhead .eofInValue
    let m := m * Nat.pow 10 fs.length + digitsValue fs
    let e : Int := -(fs.length : Int)
    match ← peek with
    | some 'e' | some 'E' =>
      eat
      exponent positive m e
    | _ => real positive m e
  | some 'e' | some 'E' =>
    eat
    exponent positive m 0
  | _ => integer positive m

def number (positive : Bool) : Reader JsonNumber := do
  match ← next with
  | none => fail .eofInValue
  | some '0' =>
    if (← peek).any Char.isDigit then failAhead .invalidNumber
    afterInteger positive ['0']
  | some c =>
    if !c.isDigit then fail .invalidNumber
    afterInteger positive (c :: (← digits))

/-- Reads the items of an array after its opening bracket, up to its closing bracket,
which is left to read; `fuel` bounds the characters left. -/
def items (item : Reader Json) (fuel : Nat) (first : Bool) (acc : List Json) :
    Reader (List Json) :=
  match fuel with
  | 0 => failAhead .eofInList
  | fuel + 1 => do
    match ← skipBlank with
    | none => failAhead .eofInList
    | some ']' => return acc.reverse
    | some ',' =>
      if first then items item fuel false ((← item) :: acc)
      else
        eat
        match ← skipBlank with
        | none => failAhead .eofInValue
        | some ']' => failAhead .trailingComma
        | some _ => items item fuel false ((← item) :: acc)
    | some _ =>
      if first then items item fuel false ((← item) :: acc)
      else failAhead .expectedListCommaOrEnd

def member (value : Reader Json) : Reader (String × Json) := do
  eat
  let key ← string
  match ← skipBlank with
  | none => failAhead .eofInObject
  | some ':' => eat
  | some _ => failAhead .expectedColon
  return (key, ← value)

/-- Reads the members of an object after its opening brace, up to its closing brace,
which is left to read; `fuel` bounds the characters left. -/
def members (value : Reader Json) (fuel : Nat) (first : Bool) (acc : List (String × Json)) :
    Reader (List (String × Json)) :=
  match fuel with
  | 0 => failAhead .eofInObject
  | fuel + 1 => do
    match ← skipBlank with
    | none => failAhead .eofInObject
    | some '\x7d' => return acc.reverse
    | some ',' =>
      if first then failAhead .keyMustBeString
      else
        eat
        match ← skipBlank with
        | none => failAhead .eofInValue
        | some '"' => members value fuel false ((← member value) :: acc)
        | some '\x7d' => failAhead .trailingComma
        | some _ => failAhead .keyMustBeString
    | some '"' =>
      if first then members value fuel false ((← member value) :: acc)
      else failAhead .expectedObjectCommaOrEnd
    | some _ =>
      if first then failAhead .keyMustBeString else failAhead .expectedObjectCommaOrEnd

def insertMember (m : String × Json) : List (String × Json) → List (String × Json)
  | [] => [m]
  | n :: ns =>
    if m.1 = n.1 then m :: ns
    else if m.1 < n.1 then m :: n :: ns
    else n :: insertMember m ns

/-- Reads a value with blanks before it. The values inside an array or object are read by
`inner`; with no `inner`, no array or object may open. -/
def valueWith (inner : Option (Reader Json)) : Reader Json := do
  match ← skipBlank with
  | none => failAhead .eofInValue
  | some 'n' =>
    eat
    ident ['u', 'l', 'l']
    return .null
  | some 't' =>
    eat
    ident ['r', 'u', 'e']
    return .bool true
  | some 'f' =>
    eat
    ident ['a', 'l', 's', 'e']
    return .bool false
  | some '-' =>
    eat
    return .num (← number false)
  | some '"' =>
    eat
    return .str (← string)
  | some '[' =>
    match inner with
    | none => failAhead .recursionLimit
    | some inner =>
      eat
      let xs ← items inner ((← get).rest.length + 1) true []
      eat
      return .arr xs
  | some '\x7b' =>
    match inner with
    | none => failAhead .recursionLimit
    | some inner =>
      eat
      let ms ← members inner ((← get).rest.length + 1) true []
      eat
      return .obj (ms.foldl (fun acc m => insertMember m acc) [])
  | some c =>
    if c.isDigit then return .num (← number true)
    else failAhead .expectedValue

/-- Reads a value with blanks before it; `depth` more arrays and objects may open inside
each other. -/
def value : Nat → Reader Json
  | 0 => valueWith none
  | depth + 1 => valueWith (some (value depth))

def document : Reader Json := do
  let j ← value 127
  match ← skipBlank with
  | some _ => failAhead .trailingCharacters
  | none => return j

end Reader

def read (s : String) : Except SyntaxError Json :=
  Reader.document.run' ⟨s.toList, 0⟩

end Json

end DualArrays
