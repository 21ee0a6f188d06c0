
namespace DualArrays

/-- The order in which a container's entries follow each other in its buffer. -/
inductive Layout where
  /-- Row-major: the last index varies fastest. -/
  | row
  /-- Column-major: the first index varies fastest. -/
  | col
  deriving Repr, DecidableEq, Inhabited

namespace Layout

def toChar : Layout → Char
  | .row => 'R'
  | .col => 'C'

def text (l : Layout) : String := l.toChar.toString

def debugText : Layout → String
  | .row => "Row"
  | .col => "Col"

/-- Reads a layout letter; both cases are accepted. -/
def ofChar? : Char → Option Layout
  | 'R' | 'r' => some .row
  | 'C' | 'c' => some .col
  | _ => none

def flip : Layout → Layout
  | .row => .col
  | .col => .row

@[simp] theorem flip_flip (l : Layout) : l.flip.flip = l := by cases l <;> rfl

@[simp] theorem ofChar?_toChar (l : Layout) : ofChar? l.toChar = some l := by cases l <;> rfl

end Layout

end DualArrays
