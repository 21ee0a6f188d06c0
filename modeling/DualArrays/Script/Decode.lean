import DualArrays.Script.Json
import DualArrays.Matrix.Basic

namespace DualArrays

/-- Why a request was not answered with a value. -/
inductive Fault where
  | badInput (message : String)
  | failed (f : Failure)
  deriving Inhabited

abbrev Run := Except Fault

namespace Run

def lift {β : Type} (r : Except Error β) : Run β := r.mapError (.failed ∘ .error)

def liftF {β : Type} (r : Except Failure β) : Run β := r.mapError .failed

def bad {β : Type} (message : String) : Run β := .error (.badInput message)

end Run

namespace Json

def req (j : Json) (key : String) : Run Json :=
  match j.field? key with
  | some v => .ok v
  | none => Run.bad ("missing field " ++ key)

def opt (j : Json) (key : String) : Option Json :=
  match j.field? key with
  | some .null => none
  | v => v

def asString : Json → Run String
  | .str s => .ok s
  | j => Run.bad ("expected a string, got " ++ j.render)

def asBool : Json → Run Bool
  | .bool b => .ok b
  | j => Run.bad ("expected a bool, got " ++ j.render)

def asList : Json → Run (List Json)
  | .arr xs => .ok xs
  | j => Run.bad ("expected an array, got " ++ j.render)

def asWord : Json → Run Nat
  | .num (.word n) => .ok n
  | j => Run.bad ("expected unsigned int, got " ++ j.render)

def asSigned (bits : Nat) : Json → Run Int
  | .num (.word n) => inRange n
  | .num (.negative n) => inRange (-(n : Int))
  | j => Run.bad ("expected an integer, got " ++ j.render)
where
  inRange (v : Int) : Run Int :=
    if -Int.pow 2 (bits - 1) ≤ v ∧ v < Int.pow 2 (bits - 1) then .ok v
    else Run.bad ("i" ++ toString bits ++ " out of range")

def numberFloat : JsonNumber → Float
  | .word n => Decimal.nearestBinary64 n 0
  | .negative n => -Decimal.nearestBinary64 n 0
  | .real x => x

def asFloat : Json → Run Float
  | .num n => .ok (numberFloat n)
  | .str "nan" => .ok (RealFloat.nan)
  | .str "inf" => .ok (RealFloat.infinity)
  | .str "-inf" => .ok (-RealFloat.infinity)
  | .str "-0" => .ok (-0.0)
  | .str s => Run.bad ("bad float string " ++ s)
  | j => Run.bad ("expected a float, got " ++ j.render)

def asChar : Json → Run Char
  | .str s =>
    match s.toList with
    | [c] => .ok c
    | _ => Run.bad ("expected a one-character string, got " ++ quote s)
  | j => Run.bad ("expected a one-character string, got " ++ j.render)

def asListOf {β : Type} (f : Json → Run β) (j : Json) : Run (List β) := do
  (← asList j).mapM f

def asWords (j : Json) : Run (List Nat) := asListOf asWord j

end Json

class ScriptScalar (α : Type) (ρ : outParam Type) where
  decode : Json → Run α
  encode : α → Json
  decodeReal : Json → Run ρ
  encodeReal : ρ → Json

instance : ScriptScalar Float Float where
  decode := Json.asFloat
  encode := .float
  decodeReal := Json.asFloat
  encodeReal := .float

instance : ScriptScalar Float32 Float32 where
  decode j := return (← Json.asFloat j).toFloat32
  encode x := .float x.toFloat
  decodeReal j := return (← Json.asFloat j).toFloat32
  encodeReal x := .float x.toFloat

def Json.asComplex {ρ : Type} [RealFloat ρ] (real : Json → Run ρ) : Json → Run (Complex ρ)
  | .arr [re, im] => return ⟨← real re, ← real im⟩
  | .arr _ => Run.bad "expected [re, im]"
  | j => return ⟨← real j, RealFloat.zero⟩

instance : ScriptScalar (Complex Float) Float where
  decode := Json.asComplex Json.asFloat
  encode z := .arr [.float z.re, .float z.im]
  decodeReal := Json.asFloat
  encodeReal := .float

instance : ScriptScalar (Complex Float32) Float32 where
  decode := Json.asComplex fun j => return (← Json.asFloat j).toFloat32
  encode z := .arr [.float z.re.toFloat, .float z.im.toFloat]
  decodeReal j := return (← Json.asFloat j).toFloat32
  encodeReal x := .float x.toFloat

inductive Dtype where
  | f64
  | c64
  | f32
  | c32
  deriving DecidableEq, Inhabited

abbrev ForScalar (β : Type) :=
  (α ρ : Type) → [RealFloat ρ] → [Scalar α ρ] → [ScriptScalar α ρ] → Run β

def Dtype.run {β : Type} (d : Dtype) (k : ForScalar β) : Run β :=
  match d with
  | .f64 => k Float Float
  | .c64 => k (Complex Float) Float
  | .f32 => k Float32 Float32
  | .c32 => k (Complex Float32) Float32

inductive IntDtype where
  | i32
  | i64
  | usize
  deriving DecidableEq, Inhabited

class ScriptInt (α : Type) where
  decode : Json → Run α
  encode : α → Json
  lt : α → α → Bool

instance : ScriptInt Int32 where
  decode j := return Int32.ofInt (← Json.asSigned 32 j)
  encode x := Json.int x.toInt
  lt a b := decide (a < b)

instance : ScriptInt Int64 where
  decode j := return Int64.ofInt (← Json.asSigned 64 j)
  encode x := Json.int x.toInt
  lt a b := decide (a < b)

instance : ScriptInt UInt64 where
  decode j := return (← Json.asWord j).toUInt64
  encode x := Json.nat x.toNat
  lt a b := decide (a < b)

abbrev ForInt (β : Type) := (α : Type) → [Element α] → [ScriptInt α] → Run β

def IntDtype.run {β : Type} (d : IntDtype) (k : ForInt β) : Run β :=
  match d with
  | .i32 => k Int32
  | .i64 => k Int64
  | .usize => k UInt64

namespace Json

def dtype (j : Json) : Run Dtype :=
  match j.opt "dtype" with
  | none => .ok .f64
  | some (.str "f64") => .ok .f64
  | some (.str "c64") => .ok .c64
  | some (.str "f32") => .ok .f32
  | some (.str "c32") => .ok .c32
  | some d => Run.bad ("unknown dtype " ++ d.render)

def intDtype (j : Json) : Run IntDtype :=
  match j.opt "dtype" with
  | none => .ok .i32
  | some (.str "i32") => .ok .i32
  | some (.str "i64") => .ok .i64
  | some (.str "usize") => .ok .usize
  | some d => Run.bad ("unknown dtype " ++ d.render)

/-- A layout letter; a single character other than `R`, `C`, `r`, `c` is an invalid
argument of the library. -/
def asLayout (j : Json) : Run Layout := do
  let c ← asChar j
  match Layout.ofChar? c with
  | some l => .ok l
  | none => .error (.failed (.error (.invalidArgument "layout must be 'R' or 'C'")))

end Json

section Containers

variable {α ρ : Type} [RealFloat ρ] [Scalar α ρ] [ScriptScalar α ρ]

def Json.asVector (j : Json) : Run (Vector α) := do
  return ⟨(← Json.asListOf ScriptScalar.decode j).toArray⟩

def Json.asRealVector (j : Json) : Run (Vector ρ) := do
  return ⟨(← Json.asListOf (ScriptScalar.decodeReal (α := α)) j).toArray⟩

/-- A matrix `{rows, cols, layout, data, view?}` with entries read by `f`, the members in
that order, so a bad layout is reported before any fault of the data. -/
def Json.asMatrixOf {β : Type} [Element β] (f : Json → Run β) (j : Json) :
    Run (Matrix β) := do
  let rows ← Json.asWord (← j.req "rows")
  let cols ← Json.asWord (← j.req "cols")
  let layout ← Json.asLayout (← j.req "layout")
  let data ← Json.asListOf f (← j.req "data")
  let view ← match j.opt "view" with
    | some v => Json.asBool v
    | none => pure false
  Run.lift (Matrix.ofData (if view then "MatrixView" else "Matrix") rows cols layout data.toArray)

def Json.asMatrix (j : Json) : Run (Matrix α) := Json.asMatrixOf ScriptScalar.decode j

def Json.asRealMatrix (j : Json) : Run (Matrix ρ) :=
  Json.asMatrixOf (ScriptScalar.decodeReal (α := α)) j

def Vector.toJson (v : Vector α) : Json := .arr (v.data.toList.map ScriptScalar.encode)

def Vector.realJson (v : Vector ρ) : Json :=
  .arr (v.data.toList.map (ScriptScalar.encodeReal (α := α)))

def Matrix.jsonOf {β : Type} (f : β → Json) (m : Matrix β) : Json :=
  .obj [("cols", .nat m.cols), ("data", .arr (m.data.toList.map f)),
    ("layout", .str m.layout.text), ("rows", .nat m.rows)]

def Matrix.toJson (m : Matrix α) : Json := m.jsonOf ScriptScalar.encode

def Matrix.realJson (m : Matrix ρ) : Json := m.jsonOf (ScriptScalar.encodeReal (α := α))

end Containers

/-- A library error: its cause, its text and its context; a configuration text that could
not be read is marked as such instead of carrying a text. -/
def Error.toJson : Error → Json
  | .configText _ => .obj [("context", .str "config"), ("error", .str "Config"),
      ("parse_error", .bool true)]
  | e => .obj [("context", .str e.context), ("error", .str e.kind), ("message", .str e.message)]

def Fault.toJson : Fault → Json
  | .badInput m => .obj [("error", .str "bad_input"), ("message", .str m)]
  | .failed (.abort m) => .obj [("error", .str "panic"), ("message", .str m)]
  | .failed (.error e) => e.toJson

end DualArrays
