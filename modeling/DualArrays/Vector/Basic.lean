import DualArrays.Storage
import DualArrays.Reduce

namespace DualArrays

structure Vector (α : Type) where
  data : Array α

namespace Vector

section Plain

variable {α : Type}

def size (v : Vector α) : Nat := v.data.size

def indexError (v : Vector α) (i : Nat) : Error := .index "Vector" [i] [v.size]

def get (v : Vector α) (i : Nat) : Except Error α :=
  match v.data[i]? with
  | some x => .ok x
  | none => .error (v.indexError i)

def setIn (i : Nat) (x : α) : InPlace (Vector α) Unit := do
  let v ← MonadState.get
  if i < v.size then modify fun v => ⟨v.data.set! i x⟩
  else throw (v.indexError i)

def set (v : Vector α) (i : Nat) (x : α) : Except Error (Vector α) := (setIn i x).apply v

theorem set_eq (v : Vector α) (i : Nat) (x : α) :
    v.set i x = if i < v.size then .ok ⟨v.data.set! i x⟩ else .error (v.indexError i) := by
  unfold set InPlace.apply
  by_cases hi : i < v.size <;> simp [setIn, hi]

def fill (v : Vector α) (x : α) : Vector α := ⟨Array.replicate v.size x⟩

@[simp] theorem size_fill (v : Vector α) (x : α) : (v.fill x).size = v.size := by
  simp [fill, size]

theorem get_set_self {v w : Vector α} {i : Nat} {x : α} (h : v.set i x = .ok w) :
    w.get i = .ok x := by
  rw [set_eq] at h
  split at h
  · next hi =>
    simp only [Except.ok.injEq] at h
    subst h
    simp [get, size] at hi ⊢
    simp [hi]
  · simp at h

/-- The entries in the order `le`, which must be a total order. -/
def sortBy (v : Vector α) (le : α → α → Bool) : Vector α :=
  ⟨(v.data.toList.mergeSort le).toArray⟩

end Plain

section Element

variable {α : Type} [Element α]

def filled (n : Nat) (x : α) : Except Error (Vector α) := do
  let len ← Storage.checkedLen "Vector" [n]
  return ⟨← Storage.filled "Vector" [n] len x⟩

def zeros (n : Nat) : Except Error (Vector α) := filled n (Element.dflt)

def copyOf (src : Array α) : Except Error (Vector α) := do
  return ⟨← Storage.copy "Vector" [src.size] src⟩

/-- Resizes to `n` entries in place: a zero length drops the buffer, a longer one pads with
default entries once their room is had, a shorter one keeps the first `n`. -/
def resizeIn (n : Nat) : InPlace (Vector α) Unit := do
  if n = 0 then modify fun _ => ⟨#[]⟩
  else
    let v ← MonadState.get
    if n > v.size then InPlace.lift (Storage.reserve "Vector" [n] n (Element.size α))
    modify fun v => ⟨(v.data.toList ++ List.replicate (n - v.size) Element.dflt).take n |>.toArray⟩

def resize (v : Vector α) (n : Nat) : Except Error (Vector α) := (resizeIn n).apply v

def text (v : Vector α) : String :=
  "vector([" ++ ", ".intercalate (v.data.toList.map Element.text) ++ "])"

end Element

section Scalar

variable {α ρ : Type} [RealFloat ρ] [Scalar α ρ]

def sum (v : Vector α) : α := Scalar.sum v.data.toList

def norm (v : Vector α) (k : NormKind) : ρ := Reduce.norm v.data k

def dot (v w : Vector α) : Except Error α := Reduce.dot v.data w.data

def map (v : Vector α) (f : α → α) : Except Error (Vector α) := do
  let c ← copyOf v.data
  return ⟨c.data.map f⟩

def zipMap (v w : Vector α) (f : α → α → α) : Except Error (Vector α) :=
  if v.size = w.size then .ok ⟨Array.zipWith f v.data w.data⟩
  else .error (.dimension "Vector::zip_map" [v.size] [w.size])

def realPart (v : Vector α) : Except Error (Vector ρ) := do
  let _ ← (zeros v.size : Except Error (Vector ρ))
  return ⟨v.data.map Scalar.re⟩

def imagPart (v : Vector α) : Except Error (Vector ρ) := do
  let _ ← (zeros v.size : Except Error (Vector ρ))
  return ⟨v.data.map Scalar.im⟩

def ofReal (v : Vector ρ) : Except Error (Vector α) := do
  let _ ← (zeros v.size : Except Error (Vector α))
  return ⟨v.data.map Scalar.ofReal⟩

def invert (v : Vector α) : Vector α := ⟨v.data.map Scalar.recip⟩

/-- Every entry multiplied by `a` on the right. -/
def scale (v : Vector α) (a : α) : Vector α := ⟨v.data.map (· * a)⟩

def addToIn (b : Array α) : InPlace (Vector α) Unit := do
  let v ← MonadState.get
  if b.size ≠ v.size then throw (.dimension "Vector::add_to" [v.size] [b.size])
  modify fun v => ⟨Array.zipWith (· + ·) v.data b⟩

def addTo (v : Vector α) (b : Array α) : Except Error (Vector α) := (addToIn b).apply v

/-- Writes `alpha * a[i]` at `start + i` for every entry `a[i]` with `i < width`: the chunk of
`width` entries from `start`, zipped with `a`. -/
def fillChunk (alpha : α) (a : Array α) (width start : Nat) (buf : Array α) : Array α :=
  (a.toList.zipIdx.take width).foldl (fun b p => b.setIfInBounds (start + p.2) (alpha * p.1)) buf

/-- `n` copies of `α a`, one after the other: a buffer of zeros is cut into chunks of
`max a.size 1` entries, and each of the first `n` chunks is filled with `α a`. -/
def repeated (alpha : α) (a : Vector α) (n : Nat) : Except Error (Vector α) := do
  let len ← Storage.checkedLen "Vector" [a.size, n]
  let data ← Storage.filled "Vector" [len] len (Scalar.zero : α)
  let width := Nat.max a.size 1
  let chunks := Nat.min (data.size / width) n
  return ⟨(List.range chunks).foldl (fun buf k => fillChunk alpha a.data width (k * width) buf) data⟩

def dotMult (alpha : α) (a b : Vector α) (n : Nat) : Except Error (Vector α) := do
  repeated alpha (← a.zipMap b (· * ·)) n

def dotMultInverse2nd (alpha : α) (a b : Vector α) (n : Nat) : Except Error (Vector α) := do
  repeated alpha (← a.zipMap b (· / ·)) n

def sumScaled (alpha0 : α) (a : Vector α) (alpha1 : α) (b : Vector α) :
    Except Error (Vector α) :=
  a.zipMap b fun x y => alpha0 * x + alpha1 * y

/-- The abort of an entry-wise operator on vectors of different lengths. -/
def lengthAbort (opName : String) (a b : Nat) : Failure :=
  .abort ("assertion `left == right` failed: length mismatch in element-wise " ++ opName ++
    ": " ++ toString a ++ " vs " ++ toString b ++ "\n  left: " ++ toString a ++
    "\n right: " ++ toString b)

/-- Entry-wise `f` of two vectors; operands of different lengths abort. -/
def entrywise (opName : String) (f : α → α → α) (v w : Vector α) :
    Except Failure (Vector α) :=
  if v.size = w.size then .ok ⟨Array.zipWith f v.data w.data⟩
  else .error (lengthAbort opName v.size w.size)

def broadcast (f : α → α → α) (v : Vector α) (a : α) : Vector α :=
  ⟨v.data.map (f · a)⟩

def neg (v : Vector α) : Vector α := ⟨v.data.map (- ·)⟩

omit [RealFloat ρ] in
@[simp] theorem size_scale (v : Vector α) (a : α) : (v.scale a).size = v.size := by
  simp [scale, size]

end Scalar

end Vector

end DualArrays
