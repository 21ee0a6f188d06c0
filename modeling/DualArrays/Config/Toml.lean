import DualArrays.Config.Basic

/-!
# Settings as TOML

`Config.toToml` writes the settings as a TOML document, one `key = value` line per field in
declaration order: integers in decimal, the layout as the string `"R"` or `"C"`, booleans as
`true`/`false`, and reals in positional notation with `.0` added to whole values (`nan`,
`-nan`, `inf`, `-inf` for the others). An integer setting beyond the largest signed 64-bit
integer cannot be written.

`Config.ofToml` reads a TOML document whose top level only assigns settings. Each key may
appear once; integers (decimal, hexadecimal, octal or binary, with `_` between digits) fit
a signed 64-bit integer and must not be negative for a count; a real setting takes a float
or an integer; the layout is the string `R` or `C`. Anything else, a table, an array, a
date, an unknown or repeated key, is refused as unreadable. A byte order mark may open
the document. Missing settings keep their defaults and the result is validated.
-/

namespace DualArrays

namespace Toml

/-- The TOML text of a real: positional digits, `.0` added to a whole value. -/
def floatText (x : Float) : String :=
  if x.isNaN then (if RealFloat.signNegative x then "-nan" else "nan")
  else if x == 0.0 then (if RealFloat.signNegative x then "-0.0" else "0.0")
  else if x.isFinite && x.floor == x then RealFloat.plainText x ++ ".0"
  else RealFloat.plainText x

def intMax : Nat := Nat.pow 2 63 - 1

inductive Value where
  | str (s : String)
  | int (i : Int)
  | float (x : Float)
  | bool (b : Bool)

def skipSpace (cs : List Char) : List Char := cs.dropWhile fun c => c == ' ' || c == '\t'

def hexDigit? (c : Char) : Option Nat :=
  if c.isDigit then some (c.toNat - '0'.toNat)
  else if 'a' ≤ c ∧ c ≤ 'f' then some (c.toNat - 'a'.toNat + 10)
  else if 'A' ≤ c ∧ c ≤ 'F' then some (c.toNat - 'A'.toNat + 10)
  else none

def scalarOfHex (ds : List Char) : Option Char := do
  let v ← ds.foldlM (fun acc c => (hexDigit? c).map (acc * 16 + ·)) 0
  if v < 0xD800 ∨ (0xE000 ≤ v ∧ v < 0x110000) then some (Char.ofNat v) else none

def simpleEscape (c : Char) : Option Char :=
  match c with
  | 'b' => some '\x08'
  | 't' => some '\t'
  | 'n' => some '\n'
  | 'f' => some '\x0c'
  | 'r' => some '\r'
  | '"' => some '"'
  | '\\' => some '\\'
  | _ => none

/-- A character that a string may hold as is: no control character but the tab. -/
def plainChar (c : Char) : Bool := c == '\t' || (c.toNat ≥ 0x20 && c.toNat ≠ 0x7F)

def readEscape (cs : List Char) : Option (Char × List Char) :=
  match cs with
  | 'u' :: r => do
    return (← scalarOfHex (r.take 4), ← if r.length ≥ 4 then some (r.drop 4) else none)
  | 'U' :: r => do
    return (← scalarOfHex (r.take 8), ← if r.length ≥ 8 then some (r.drop 8) else none)
  | c :: r => (simpleEscape c).map (·, r)
  | [] => none

/-- The body of a one-line basic string after its opening quote, read in at most `fuel`
steps. -/
def readBasic (fuel : Nat) (cs acc : List Char) : Option (String × List Char) :=
  match fuel with
  | 0 => none
  | fuel + 1 =>
    match cs with
    | [] => none
    | '"' :: r => some (String.ofList acc.reverse, r)
    | '\\' :: r => do
      let (c, r) ← readEscape r
      readBasic fuel r (c :: acc)
    | c :: r => if plainChar c then readBasic fuel r (c :: acc) else none

def newlineLen (cs : List Char) : Option Nat :=
  match cs with
  | '\n' :: _ => some 1
  | '\r' :: '\n' :: _ => some 2
  | _ => none

def skipBlankLines (cs : List Char) : List Char :=
  cs.dropWhile fun c => c == ' ' || c == '\t' || c == '\n' || c == '\r'

/-- The body of a multi-line basic string after its opening quotes: line breaks are kept,
a backslash at the end of a line drops the break and the blanks after it, and a closing
run of up to five quotes keeps all but the last three. -/
def readMultiBasic (fuel : Nat) (cs acc : List Char) : Option (String × List Char) :=
  match fuel with
  | 0 => none
  | fuel + 1 =>
    match cs with
    | '"' :: '"' :: '"' :: '"' :: '"' :: r => some (String.ofList ('"' :: '"' :: acc).reverse, r)
    | '"' :: '"' :: '"' :: '"' :: r => some (String.ofList ('"' :: acc).reverse, r)
    | '"' :: '"' :: '"' :: r => some (String.ofList acc.reverse, r)
    | '\\' :: r =>
      let after := skipSpace r
      if (newlineLen after).isSome then readMultiBasic fuel (skipBlankLines after) acc
      else do
        let (c, r) ← readEscape r
        readMultiBasic fuel r (c :: acc)
    | '\r' :: '\n' :: r => readMultiBasic fuel r ('\n' :: acc)
    | '\n' :: r => readMultiBasic fuel r ('\n' :: acc)
    | c :: r => if plainChar c then readMultiBasic fuel r (c :: acc) else none
    | [] => none

def readLiteral (cs : List Char) : Option (String × List Char) :=
  let body := cs.takeWhile (· != '\'')
  if body.all plainChar then
    match cs.drop body.length with
    | '\'' :: r => some (String.ofList body, r)
    | _ => none
  else none

def readMultiLiteral (fuel : Nat) (cs acc : List Char) : Option (String × List Char) :=
  match fuel with
  | 0 => none
  | fuel + 1 =>
    match cs with
    | '\'' :: '\'' :: '\'' :: '\'' :: '\'' :: r =>
      some (String.ofList ('\'' :: '\'' :: acc).reverse, r)
    | '\'' :: '\'' :: '\'' :: '\'' :: r => some (String.ofList ('\'' :: acc).reverse, r)
    | '\'' :: '\'' :: '\'' :: r => some (String.ofList acc.reverse, r)
    | '\r' :: '\n' :: r => readMultiLiteral fuel r ('\n' :: acc)
    | '\n' :: r => readMultiLiteral fuel r ('\n' :: acc)
    | c :: r => if plainChar c then readMultiLiteral fuel r (c :: acc) else none
    | [] => none

def dropFirstNewline (cs : List Char) : List Char :=
  match cs with
  | '\n' :: r => r
  | '\r' :: '\n' :: r => r
  | _ => cs

/-- Digits of base `b` with single underscores between them: their value. -/
def digitsValue (b : Nat) (cs : List Char) : Option Nat :=
  let rec go (cs : List Char) (acc : Nat) (afterDigit : Bool) : Option Nat :=
    match cs with
    | [] => if afterDigit then some acc else none
    | '_' :: r => if afterDigit then go r acc false else none
    | c :: r => do
      let d ← hexDigit? c
      if d < b then go r (acc * b + d) true else none
  if cs.isEmpty then none else go cs 0 false

/-- A decimal integer part: `0` alone or digits without a leading zero. -/
def decimalPart (cs : List Char) : Option Nat :=
  match cs with
  | ['0'] => some 0
  | '0' :: _ => none
  | _ => digitsValue 10 cs

def splitSign (cs : List Char) : Bool × List Char :=
  match cs with
  | '+' :: r => (false, r)
  | '-' :: r => (true, r)
  | _ => (false, cs)

def readInt (cs : List Char) : Option Int :=
  match cs with
  | '0' :: 'x' :: r => (digitsValue 16 r).map Int.ofNat
  | '0' :: 'o' :: r => (digitsValue 8 r).map Int.ofNat
  | '0' :: 'b' :: r => (digitsValue 2 r).map Int.ofNat
  | _ =>
    let (neg, r) := splitSign cs
    (decimalPart r).map fun v => if neg then -(v : Int) else v

def decimalFloat (neg : Bool) (m : Nat) (e : Int) : Float :=
  let x := Decimal.nearestBinary64 m e
  if neg then -x else x

/-- The real that a TOML float denotes, if the text is one: an integer part, then a
fraction, an exponent or both; or `inf` or `nan`, either with a sign. A decimal that
overflows to positive infinity is refused, while one that overflows to negative infinity
is kept. -/
def readFloat (cs : List Char) : Option Float :=
  let (neg, r) := splitSign cs
  match r with
  | ['i', 'n', 'f'] => some (if neg then -RealFloat.infinity else RealFloat.infinity)
  | ['n', 'a', 'n'] => some (if neg then -RealFloat.nan else RealFloat.nan)
  | _ => do
    let intText := r.takeWhile fun c => c.isDigit || c == '_'
    let whole ← decimalPart intText
    let rest := r.drop intText.length
    let (frac, nFrac, rest, hasFrac) ← match rest with
      | '.' :: r' =>
        let t := r'.takeWhile fun c => c.isDigit || c == '_'
        let v ← digitsValue 10 t
        some (v, (t.filter Char.isDigit).length, r'.drop t.length, true)
      | _ => some (0, 0, rest, false)
    let (exp, hasExp) ← match rest with
      | [] => some (0, false)
      | e :: r' =>
        if e == 'e' || e == 'E' then
          let (eneg, t) := splitSign r'
          let v ← digitsValue 10 t
          some ((if eneg then -(v : Int) else v), true)
        else none
    if !hasFrac && !hasExp then none
    let x := decimalFloat neg (whole * Nat.pow 10 nFrac + frac) (exp - nFrac)
    if x == RealFloat.infinity then none
    return x

def readValue (cs : List Char) : Option (Value × List Char) :=
  let fuel := cs.length + 1
  match cs with
  | '"' :: '"' :: '"' :: r =>
    (readMultiBasic fuel (dropFirstNewline r) []).map fun (s, r) => (.str s, r)
  | '"' :: r => (readBasic fuel r []).map fun (s, r) => (.str s, r)
  | '\'' :: '\'' :: '\'' :: r =>
    (readMultiLiteral fuel (dropFirstNewline r) []).map fun (s, r) => (.str s, r)
  | '\'' :: r => (readLiteral r).map fun (s, r) => (.str s, r)
  | _ =>
    let word := cs.takeWhile numberChar
    let rest := cs.drop word.length
    if word == ['t', 'r', 'u', 'e'] then some (.bool true, rest)
    else if word == ['f', 'a', 'l', 's', 'e'] then some (.bool false, rest)
    else match readInt word with
      | some i => if -Int.pow 2 63 ≤ i ∧ i ≤ intMax then some (.int i, rest) else none
      | none => (readFloat word).map (.float ·, rest)
where
  numberChar (c : Char) : Bool :=
    c.isAlphanum || c == '_' || c == '+' || c == '-' || c == '.' || c == ':'

/-- A key at the front of a line: bare, or in basic or literal quotes. -/
def readKey (cs : List Char) : Option (String × List Char) :=
  match cs with
  | '"' :: r => readBasic (r.length + 1) r []
  | '\'' :: r => readLiteral r
  | _ =>
    let k := cs.takeWhile fun c => c.isAlphanum || c == '_' || c == '-'
    if k.isEmpty then none else some (String.ofList k, cs.drop k.length)

/-- The end of a line after a value: blanks, an optional comment, then a line break or the
end of the text. -/
def lineEnd (cs : List Char) : Option (List Char) :=
  match skipSpace cs with
  | [] => some []
  | '#' :: r =>
    let body := r.takeWhile fun c => c != '\n' && c != '\r'
    if body.all plainChar then lineEnd' (r.drop body.length) else none
  | r => lineEnd' r
where
  lineEnd' (cs : List Char) : Option (List Char) :=
    match cs with
    | [] => some []
    | '\n' :: r => some r
    | '\r' :: '\n' :: r => some r
    | _ => none

/-- The assignments of a document, in order, read in at most `fuel` lines. -/
def readDocument (fuel : Nat) (cs : List Char) (acc : List (String × Value)) :
    Option (List (String × Value)) :=
  match fuel with
  | 0 => none
  | fuel + 1 =>
    match skipSpace cs with
    | [] => some acc.reverse
    | '#' :: _ => do readDocument fuel (← lineEnd (skipSpace cs)) acc
    | '\n' :: r => readDocument fuel r acc
    | '\r' :: '\n' :: r => readDocument fuel r acc
    | r => do
      let (k, r) ← readKey r
      let r ← match skipSpace r with
        | '=' :: r' => some (skipSpace r')
        | _ => none
      let (v, r) ← readValue r
      readDocument fuel (← lineEnd r) ((k, v) :: acc)

def byteOrderMark : Char := Char.ofNat 0xFEFF

def dropByteOrderMark (cs : List Char) : List Char :=
  match cs with
  | c :: r => if c = byteOrderMark then r else cs
  | [] => []

end Toml

namespace Config

/-- The TOML text of the settings, or an error for an integer setting past the largest
signed 64-bit integer. -/
def toToml (c : Config) : Except Error String := do
  let int (k : String) (v : Nat) : Except Error String :=
    if v ≤ Toml.intMax then .ok (k ++ " = " ++ toString v ++ "\n")
    else .error (.configText "out-of-range value for u64 type")
  return (← int "dim" c.dim) ++ (← int "n_eq" c.nEq) ++ (← int "n_var" c.nVar) ++
    (← int "p_max" c.pMax) ++ "layout = \"" ++ c.layout.text ++ "\"\n" ++
    "complex_step = " ++ Toml.floatText c.complexStep ++ "\n" ++
    "check_duality = " ++ (if c.checkDuality then "true" else "false") ++ "\n" ++
    "print_tol = " ++ Toml.floatText c.printTol ++ "\n"

/-- One assignment applied to the settings, if the key is a setting and the value has its
type. -/
def assign (c : Config) : String × Toml.Value → Except Error Config
  | ("dim", .int i) => count i fun n => { c with dim := n }
  | ("n_eq", .int i) => count i fun n => { c with nEq := n }
  | ("n_var", .int i) => count i fun n => { c with nVar := n }
  | ("p_max", .int i) => count i fun n => { c with pMax := n }
  | ("layout", .str "R") => .ok { c with layout := .row }
  | ("layout", .str "C") => .ok { c with layout := .col }
  | ("complex_step", v) => real v fun x => { c with complexStep := x }
  | ("print_tol", v) => real v fun x => { c with printTol := x }
  | ("check_duality", .bool b) => .ok { c with checkDuality := b }
  | (k, _) => .error (.configText ("bad value for " ++ k))
where
  count (i : Int) (set : Nat → Config) : Except Error Config :=
    if i < 0 then .error (.configText "invalid value: integer, expected usize")
    else .ok (set i.toNat)
  real (v : Toml.Value) (set : Float → Config) : Except Error Config :=
    match v with
    | .float x => .ok (set x)
    | .int i => .ok (set (Toml.decimalFloat (i < 0) i.natAbs 0))
    | _ => .error (.configText "invalid type, expected f64")

def keys : List String :=
  ["dim", "n_eq", "n_var", "p_max", "layout", "complex_step", "check_duality", "print_tol"]

/-- Reads and validates settings from a TOML document. -/
def ofToml (s : String) : Except Error Config := do
  let cs := Toml.dropByteOrderMark s.toList
  let some assigns := Toml.readDocument (cs.length + 1) cs [] |
    throw (.configText "unreadable TOML")
  let ks := assigns.map (·.1)
  if let some k := ks.find? (· ∉ keys) then throw (.configText ("unknown field " ++ k))
  if !ks.Nodup then throw (.configText "duplicate key")
  let c ← assigns.foldlM assign ({} : Config)
  c.validate
  return c

end Config

end DualArrays
