import DualArrays.Display.Tolerance
import DualArrays.Multiarray.Basic

namespace DualArrays

/-- Advances a counter of trailing indices over their extents, the first fastest: an index
that reaches its extent returns to zero and carries into the next one. Past the last tuple
there is no next one. -/
def increment : List Nat → List Nat → Option (List Nat)
  | c :: cs, e :: es =>
    if c + 1 < e then some ((c + 1) :: cs) else (increment cs es).map (0 :: ·)
  | _, _ => none

/-- A count that every advance of the counter lowers: what the first index has left to run,
plus the count of the others, weighted above anything the first index can add. -/
def counterDistance : List Nat → List Nat → Nat
  | c :: cs, e :: es => (e - (c + 1)) + (e + 1) * counterDistance cs es
  | _, _ => 0

theorem counterDistance_increment {counter tail next : List Nat}
    (h : increment counter tail = some next) :
    counterDistance next tail < counterDistance counter tail := by
  induction counter generalizing tail next with
  | nil => cases tail <;> simp [increment] at h
  | cons c cs ih =>
    cases tail with
    | nil => simp [increment] at h
    | cons e es =>
      unfold increment at h
      split at h
      next hlt =>
        cases h
        simp only [counterDistance]
        omega
      next hcarry =>
        -- a carry resets the first index, which the drop of the others outweighs
        obtain ⟨cs', hcs', rfl⟩ := Option.map_eq_some_iff.mp h
        have hmul := Nat.mul_le_mul_left (e + 1) (Nat.succ_le_of_lt (ih hcs'))
        rw [Nat.mul_succ] at hmul
        simp only [counterDistance]
        omega

/-- The tuples the counter visits from `counter` on: the counter itself, then those from its
advance, until it has passed the last tuple. -/
def counterRun (tail counter : List Nat) : List (List Nat) :=
  counter :: match h : increment counter tail with
    | some next =>
      have := counterDistance_increment h
      counterRun tail next
    | none => []
termination_by counterDistance counter tail

namespace Tolerance

variable {α ρ : Type} [RealFloat ρ] [Scalar α ρ]

def extentsHeader (extents : List Nat) : String :=
  "Multi-array extents: \x7b" ++ String.join (extents.map fun e => " " ++ toString e ++ ",") ++
    " \x7d\n\n"

/-- The block of the trailing indices `counter`: its counter line `{:,:,i,j}`, then the matrix
of the first two indices. -/
def block (tol : ρ) (rows cols : Nat) (entryAt : List Nat → α) (counter : List Nat) : String :=
  "\x7b:,:" ++ String.join (counter.map fun c => "," ++ toString c) ++ "\x7d\n" ++
    grid tol rows cols fun i j => entryAt (i :: j :: counter)

end Tolerance

namespace Multiarray

variable {α ρ : Type} [RealFloat ρ] [Scalar α ρ]

def read (m : Multiarray α) (index : List Nat) : α := m.data.getD (m.offset index) Element.dflt

def tolBody (m : Multiarray α) (tol : ρ) : String :=
  match m.extents with
  | [n] => Tolerance.line tol ((List.range n).map fun k => m.data.getD k Element.dflt)
  | [rows, cols] => Tolerance.grid tol rows cols fun i j => m.read [i, j]
  | rows :: cols :: tail =>
    if m.size = 0 then ""
    else "\n".intercalate ((counterRun tail (List.replicate tail.length 0)).map
      (Tolerance.block tol rows cols m.read))
  | [] => ""

def tolText (m : Multiarray α) (tol : ρ) : String :=
  Tolerance.extentsHeader m.extents ++ m.tolBody tol ++ "\n"

end Multiarray

end DualArrays
