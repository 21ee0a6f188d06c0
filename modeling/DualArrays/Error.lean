import DualArrays.Layout

/-!
# Errors and aborts

Operations report a recoverable `Error`, one constructor per cause, whose text is written
by `Error.message` alone. Some operations can also abort, on an arithmetic overflow of a
machine word or a broken precondition of an operator; a `Failure` is either of the two.

Sizes and indices are machine words of 64 bits: `Word.add` and `Word.mul` abort on
overflow, as checked word arithmetic does.
-/

namespace DualArrays

/-- Why storage could not be allocated. -/
inductive AllocReason where
  | extentOverflow
  | capacityOverflow
  | allocatorFailure
  deriving Repr, DecidableEq

def AllocReason.text : AllocReason → String
  | .extentOverflow => "extent product overflows the addressable range"
  | .capacityOverflow =>
    "memory allocation failed because the computed capacity exceeded the collection's maximum"
  | .allocatorFailure => "memory allocation failed because the memory allocator returned an error"

/-- A recoverable error of a library operation. -/
inductive Error where
  | allocation (container : String) (extents : List Nat) (reason : AllocReason)
  | index (container : String) (index : List Nat) (extents : List Nat)
  | invariant (container : String) (reason : String)
  | dimension (op : String) (expected got : List Nat)
  | layout (op : String) (required got : Layout)
  | invalidArgument (reason : String)
  | config (message : String)
  | configText (detail : String)
  deriving Repr, DecidableEq

def listText (xs : List Nat) : String :=
  "[" ++ ", ".intercalate (xs.map toString) ++ "]"

namespace Error

def kind : Error → String
  | .allocation .. => "Allocation"
  | .index .. => "Index"
  | .invariant .. => "InvariantViolation"
  | .dimension .. => "DimensionMismatch"
  | .layout .. => "LayoutMismatch"
  | .invalidArgument .. => "InvalidArgument"
  | .config .. => "Config"
  | .configText .. => "Config"

def message : Error → String
  | .allocation c e r =>
    c ++ ": cannot allocate storage for extents " ++ listText e ++ ": " ++ r.text
  | .index c i e => c ++ ": index " ++ listText i ++ " out of range for extents " ++ listText e
  | .invariant c r => c ++ ": invariant violated: " ++ r
  | .dimension op e g =>
    op ++ ": dimension mismatch: expected " ++ listText e ++ ", got " ++ listText g
  | .layout op r g => op ++ ": requires layout '" ++ r.text ++ "', got '" ++ g.text ++ "'"
  | .invalidArgument r => "invalid argument: " ++ r
  | .config m => "invalid configuration: " ++ m
  | .configText d => "invalid configuration: " ++ d

/-- Where an error arose: the container, the operation, `argument` or `config`. -/
def context : Error → String
  | .allocation c .. => c
  | .index c .. => c
  | .invariant c .. => c
  | .dimension op .. => op
  | .layout op .. => op
  | .invalidArgument .. => "argument"
  | .config .. => "config"
  | .configText .. => "config"

end Error

/-- The end of an operation that did not return: a recoverable error or an abort. -/
inductive Failure where
  | error (e : Error)
  | abort (message : String)
  deriving Repr, DecidableEq

instance : Coe Error Failure := ⟨Failure.error⟩

/-- An `Except Error` result as an `Except Failure` one: every error stays a recoverable
`Failure.error`. -/
def Except.toFailure {α : Type} (r : Except Error α) : Except Failure α :=
  r.mapError Failure.error

/-- The abort of an operation whose caller declared any error fatal: `<operation> failed:
<message>`. -/
def Error.fatal (operation : String) (e : Error) : Failure :=
  .abort (operation ++ " failed: " ++ e.message)

namespace Word

def max : Nat := Nat.pow 2 64 - 1

def maxSigned : Nat := Nat.pow 2 63 - 1

def add? (a b : Nat) : Option Nat := if a + b ≤ max then some (a + b) else none

def mul? (a b : Nat) : Option Nat := if a * b ≤ max then some (a * b) else none

/-- Checked power: `none` past the largest word. A base of at least two overflows from the
64th power on, so no large power is ever formed. -/
def pow? (b e : Nat) : Option Nat :=
  if b = 0 then some (if e = 0 then 1 else 0)
  else if b = 1 then some 1
  else if e ≥ 64 then none
  else if Nat.pow b e ≤ max then some (Nat.pow b e) else none

def add (a b : Nat) : Except Failure Nat :=
  match add? a b with
  | some c => .ok c
  | none => .error (.abort "attempt to add with overflow")

def mul (a b : Nat) : Except Failure Nat :=
  match mul? a b with
  | some c => .ok c
  | none => .error (.abort "attempt to multiply with overflow")

def addSat (a b : Nat) : Nat := Nat.min (a + b) max

def prod? (xs : List Nat) : Option Nat := xs.foldlM mul? 1

/-- The product of a list of words, aborting when a partial product overflows. -/
def prod (xs : List Nat) : Except Failure Nat := xs.foldlM mul 1

/-- The sum of a list of words, aborting when a partial sum overflows. -/
def sum (xs : List Nat) : Except Failure Nat := xs.foldlM add 0

theorem add?_eq_some_iff {a b c : Nat} : add? a b = some c ↔ a + b ≤ max ∧ c = a + b := by
  unfold add?
  split
  · simp_all [eq_comm]
  · simp only [reduceCtorEq, false_iff, not_and]
    omega

end Word

end DualArrays
