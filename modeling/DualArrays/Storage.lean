import DualArrays.Error
import DualArrays.Scalar.Basic

/-!
# Storage of container entries

A container keeps its entries in one buffer. Before a buffer is made the library checks the
request in the order an allocator would meet it:

* the entry count, the product of the extents, must fit a machine word
  (`checkedLen`);
* a non-empty buffer may hold at most `2 ^ 63 - 1` bytes;
* the allocator serves at most `2 ^ 36` bytes in one request.

An empty buffer needs no memory and always succeeds. `checkLen` is the consistency rule of a
buffer handed to a container: it must hold exactly the product of the extents.

A buffer made without that check (`allocate`) meets the same two limits, but past them it
panics or aborts. A buffer that grows by pushes asks for twice its capacity, at least
`minCapacity`, each time it is full.
-/

namespace DualArrays

namespace Storage

/-- The most bytes the allocator serves in one request. -/
def allocatorLimit : Nat := Nat.pow 2 36

/-- The number of entries that extents describe, or an allocation error when the product
overflows a machine word. -/
def checkedLen (container : String) (extents : List Nat) : Except Error Nat :=
  match Word.prod? extents with
  | some n => .ok n
  | none => .error (.allocation container extents .extentOverflow)

/-- Whether a buffer of `len` entries of `size` bytes can be had, reported for the given
extents. -/
def reserve (container : String) (extents : List Nat) (len size : Nat) : Except Error Unit :=
  if len = 0 then .ok ()
  else if len * size > Word.maxSigned then .error (.allocation container extents .capacityOverflow)
  else if len * size > allocatorLimit then .error (.allocation container extents .allocatorFailure)
  else .ok ()

/-- An allocation that cannot fail softly, as `Vec::with_capacity` and a growing push make it:
past `isize::MAX` bytes it panics, and a request the allocator refuses aborts the process. -/
def allocate (bytes : Nat) : Except Failure Unit :=
  if bytes > Word.maxSigned then .error (.abort "capacity overflow")
  else if bytes > allocatorLimit then
    .error (.abort ("memory allocation of " ++ toString bytes ++ " bytes failed"))
  else .ok ()

/-- The least capacity a growing buffer of `size`-byte entries takes. -/
def minCapacity (size : Nat) : Nat :=
  if size = 1 then 8 else if size ≤ 1024 then 4 else 1

def grownCapacity (size cap : Nat) : Nat := max (minCapacity size) (2 * cap)

/-- A push onto a buffer of `len` entries and capacity `cap`, which grows first when full; the
capacity after the push. -/
def push (size len cap : Nat) : Except Failure Nat :=
  if len < cap then .ok cap
  else do
    allocate (grownCapacity size cap * size)
    return grownCapacity size cap

/-- `n` pushes onto two buffers side by side, onto the first and then onto the second, both
holding `len` entries, within capacities `cap₁` and `cap₂`. -/
def pushPairs (size₁ size₂ : Nat) : Nat → Nat → Nat → Nat → Except Failure Unit
  | 0, _, _, _ => .ok ()
  | n + 1, len, cap₁, cap₂ => do
    let cap₁ ← push size₁ len cap₁
    let cap₂ ← push size₂ len cap₂
    pushPairs size₁ size₂ n (len + 1) cap₁ cap₂

def filled {α : Type} [Element α] (container : String) (extents : List Nat) (len : Nat)
    (value : α) : Except Error (Array α) := do
  reserve container extents len (Element.size α)
  return Array.replicate len value

def copy {α : Type} [Element α] (container : String) (extents : List Nat) (src : Array α) :
    Except Error (Array α) := do
  reserve container extents src.size (Element.size α)
  return src

/-- The buffer must hold exactly as many entries as the extents describe. -/
def checkLen (container : String) (extents : List Nat) (len : Nat) : Except Error Unit := do
  let expected ← checkedLen container extents
  if expected ≠ len then
    throw (.invariant container ("extents " ++ listText extents ++ " describe " ++
      toString expected ++ " elements, buffer holds " ++ toString len))

theorem filled_size {α : Type} [Element α] {c : String} {e : List Nat} {n : Nat} {v : α}
    {a : Array α} (h : filled c e n v = .ok a) : a.size = n := by
  unfold filled at h
  cases hr : reserve c e n (Element.size α) with
  | error err => simp [hr, bind, Except.bind] at h
  | ok u =>
    simp only [hr, bind, Except.bind, pure, Except.pure, Except.ok.injEq] at h
    subst h
    simp

end Storage

end DualArrays
