import DualArrays.Linalg.Blas
import DualArrays.Proofs.MatrixEntries
import DualArrays.Proofs.FloatMaximum

namespace DualArrays.Proofs.DenseKernels

open DualArrays DualArrays.Blas
open DualArrays.Proofs.MatrixEntries

section Plain

variable {β γ : Type}

/-- Two outcomes of a matrix-valued operation that no reader by logical index tells apart:
the same error, or matrices with the same entries. -/
def ResultSame : Except Error (Matrix β) → Except Error (Matrix β) → Prop
  | .ok a, .ok b => SameEntries a b
  | .error e, .error e' => e = e'
  | _, _ => False

def ShapeChecked (fits : Prop) (r : Except Error γ) : Prop :=
  ((∃ v, r = .ok v) ↔ fits) ∧ ∀ e, r = .error e → e.kind = "DimensionMismatch"

theorem ShapeChecked.map {δ : Type} {fits : Prop} {r : Except Error γ} (f : γ → δ)
    (h : ShapeChecked fits r) : ShapeChecked fits (f <$> r) := by
  cases r with
  | error e => exact ⟨by simpa [Functor.map, Except.map] using h.1, fun e' he => by
      cases he
      exact h.2 e rfl⟩
  | ok v => exact ⟨by simpa [Functor.map, Except.map] using h.1, fun e' he => by cases he⟩

theorem ShapeChecked.of_iff {fits fits' : Prop} {r : Except Error γ} (h : ShapeChecked fits r)
    (hiff : fits ↔ fits') : ShapeChecked fits' r :=
  ⟨h.1.trans hiff, h.2⟩

/-- An operation that allocates its output before it checks shapes: the allocation's error
comes first, and once the output is had the shapes are checked. -/
def AllocThenCheck {δ : Type} (alloc : Except Error δ) (fits : Prop) (r : Except Error γ) :
    Prop :=
  (∀ e, alloc = .error e → r = .error e) ∧ ((∃ z, alloc = .ok z) → ShapeChecked fits r)

theorem opExtents_congr {a a' : Matrix β} (h : SameEntries a a') (t : Transpose) :
    opExtents a t = opExtents a' t := by
  cases t <;> simp [opExtents, h.rows_eq, h.cols_eq]

theorem opAt_congr {a a' : Matrix β} (h : SameEntries a a') (d : β) (t : Transpose)
    {i j : Nat} (hi : i < (opExtents a t).1) (hj : j < (opExtents a t).2) :
    opAt a d t i j = opAt a' d t i j := by
  cases t with
  | no => exact h.read_eq d i j hi hj
  | yes => exact h.read_eq d j i hj hi

theorem opExtents_yes (a : Matrix β) : opExtents a .yes = opExtents a.transpose .no := rfl

theorem opAt_yes (a : Matrix β) (d : β) : opAt a d .yes = opAt a.transpose d .no := by
  funext i j
  exact (Matrix.read_transpose a d i j).symm

end Plain

section Products

variable {α ρ β : Type} [Scalar α ρ] [Element β]

theorem sumTo_congr {n : Nat} {f g : Nat → α} (h : ∀ p, p < n → f p = g p) :
    sumTo n f = sumTo n g := by
  unfold sumTo
  apply List.foldl_ext
  intro s p hp
  rw [h p (List.mem_range.mp hp)]

def MmFits (tA tB : Transpose) (a : Matrix β) (b c : Matrix α) : Prop :=
  (opExtents b tB).1 = (opExtents a tA).2 ∧ c.rows = (opExtents a tA).1 ∧
    c.cols = (opExtents b tB).2

theorem mmWith_eq (mul : β → α → α) (tA tB : Transpose) (alpha beta : α) (a : Matrix β)
    (b c : Matrix α) :
    mmWith mul tA tB alpha a b beta c =
      if (opExtents b tB).1 ≠ (opExtents a tA).2 then
        .error (.dimension "mm" [(opExtents a tA).2, (opExtents b tB).2]
          [(opExtents b tB).1, (opExtents b tB).2])
      else if c.rows ≠ (opExtents a tA).1 ∨ c.cols ≠ (opExtents b tB).2 then
        .error (.dimension "mm" [(opExtents a tA).1, (opExtents b tB).2] [c.rows, c.cols])
      else .ok (Matrix.ofFn c.rows c.cols c.layout fun i j =>
        combine (Element.eq beta Scalar.zero) alpha beta
          (sumTo (opExtents a tA).2 fun p =>
            mul (opAt a Element.dflt tA i p) (opAt b Element.dflt tB p j))
          (c.read Element.dflt i j)) :=
  rfl

theorem mmWith_congr (mul : β → α → α) (tA tB : Transpose) (alpha beta : α)
    {a a' : Matrix β} {b b' c c' : Matrix α} (ha : SameEntries a a') (hb : SameEntries b b')
    (hc : SameEntries c c') :
    ResultSame (mmWith mul tA tB alpha a b beta c) (mmWith mul tA tB alpha a' b' beta c') := by
  rw [mmWith_eq, mmWith_eq, ← opExtents_congr ha tA, ← opExtents_congr hb tB, ← hc.rows_eq,
    ← hc.cols_eq]
  split_ifs with hk hmn
  · rfl
  · rfl
  · refine sameEntries_ofFn _ _ rfl rfl ?_
    intro i j hi hj
    have hsum : (sumTo (opExtents a tA).2 fun p =>
          mul (opAt a Element.dflt tA i p) (opAt b Element.dflt tB p j)) =
        sumTo (opExtents a tA).2 fun p =>
          mul (opAt a' Element.dflt tA i p) (opAt b' Element.dflt tB p j) := by
      apply sumTo_congr
      intro p hp
      rw [opAt_congr ha _ tA (by omega) hp, opAt_congr hb _ tB (by omega) (by omega)]
    rw [hsum, hc.read_eq _ i j hi hj]

theorem mmWith_layout {mul : β → α → α} {tA tB : Transpose} {alpha beta : α} {a : Matrix β}
    {b c r : Matrix α} (h : mmWith mul tA tB alpha a b beta c = .ok r) : r.layout = c.layout := by
  rw [mmWith_eq] at h
  split_ifs at h
  cases h
  rfl

theorem mmWith_transpose_left (mul : β → α → α) (tB : Transpose) (alpha beta : α)
    (a : Matrix β) (b c : Matrix α) :
    mmWith mul .yes tB alpha a b beta c = mmWith mul .no tB alpha a.transpose b beta c := by
  rw [mmWith_eq, mmWith_eq, opExtents_yes, opAt_yes]

theorem mmWith_transpose_right (mul : β → α → α) (tA : Transpose) (alpha beta : α)
    (a : Matrix β) (b c : Matrix α) :
    mmWith mul tA .yes alpha a b beta c = mmWith mul tA .no alpha a b.transpose beta c := by
  rw [mmWith_eq, mmWith_eq, opExtents_yes b, opAt_yes b]

theorem mmWith_overwrite (mul : β → α → α) (tA tB : Transpose) (alpha beta : α)
    (a : Matrix β) (b : Matrix α) {c c' : Matrix α} (hbeta : Element.eq beta Scalar.zero = true)
    (hr : c.rows = c'.rows) (hcols : c.cols = c'.cols) (hl : c.layout = c'.layout) :
    mmWith mul tA tB alpha a b beta c = mmWith mul tA tB alpha a b beta c' := by
  rw [mmWith_eq, mmWith_eq, hbeta, hr, hcols, hl]
  simp [combine]

theorem mmWith_shapeChecked (mul : β → α → α) (tA tB : Transpose) (alpha beta : α)
    (a : Matrix β) (b c : Matrix α) :
    ShapeChecked (MmFits tA tB a b c) (mmWith mul tA tB alpha a b beta c) := by
  rw [mmWith_eq]
  unfold MmFits
  split_ifs with hk hmn
  · exact ⟨by simp; omega, fun e h => by cases h; rfl⟩
  · exact ⟨by simp; omega, fun e h => by cases h; rfl⟩
  · exact ⟨by simp; omega, fun e h => by cases h⟩

def MvFits (t : Transpose) (a : Matrix β) (x y : Array α) : Prop :=
  x.size = (opExtents a t).2 ∧ y.size = (opExtents a t).1

theorem mvWith_eq (mul : β → α → α) (t : Transpose) (alpha : α) (a : Matrix β) (x : Array α)
    (beta : α) (y : Array α) :
    mvWith mul t alpha a x beta y =
      if x.size ≠ (opExtents a t).2 ∨ y.size ≠ (opExtents a t).1 then
        .error (.dimension "mv" [(opExtents a t).1, (opExtents a t).2] [y.size, x.size])
      else .ok (y.mapIdx fun i yi =>
        combine (Element.eq beta Scalar.zero) alpha beta
          (sumTo (opExtents a t).2 fun j => mul (opAt a Element.dflt t i j) (x.getD j Element.dflt))
          yi) :=
  rfl

theorem mvWith_congr (mul : β → α → α) (t : Transpose) (alpha beta : α) {a a' : Matrix β}
    (x y : Array α) (ha : SameEntries a a') :
    mvWith mul t alpha a x beta y = mvWith mul t alpha a' x beta y := by
  rw [mvWith_eq, mvWith_eq, ← opExtents_congr ha t]
  split_ifs with hfit
  · rfl
  · congr 1
    apply Array.ext (by simp)
    intro i hi _
    simp only [Array.size_mapIdx] at hi
    simp only [Array.getElem_mapIdx]
    congr 1
    apply sumTo_congr
    intro j hj
    rw [opAt_congr ha _ t (by omega) hj]

theorem mvWith_transpose (mul : β → α → α) (alpha beta : α) (a : Matrix β) (x y : Array α) :
    mvWith mul .yes alpha a x beta y = mvWith mul .no alpha a.transpose x beta y := by
  rw [mvWith_eq, mvWith_eq, opExtents_yes, opAt_yes]

theorem mvWith_overwrite (mul : β → α → α) (t : Transpose) (alpha beta : α) (a : Matrix β)
    (x : Array α) {y y' : Array α} (hbeta : Element.eq beta Scalar.zero = true)
    (hy : y.size = y'.size) :
    mvWith mul t alpha a x beta y = mvWith mul t alpha a x beta y' := by
  rw [mvWith_eq, mvWith_eq, hbeta, hy]
  split_ifs
  · rfl
  · congr 1
    apply Array.ext (by simp [hy])
    intro i _ _
    simp [combine]

theorem mvWith_shapeChecked (mul : β → α → α) (t : Transpose) (alpha beta : α) (a : Matrix β)
    (x y : Array α) : ShapeChecked (MvFits t a x y) (mvWith mul t alpha a x beta y) := by
  rw [mvWith_eq]
  unfold MvFits
  split_ifs with hfit
  · exact ⟨by simp; omega, fun e h => by cases h; rfl⟩
  · exact ⟨by simp; omega, fun e h => by cases h⟩

/-- The laws of a kernel `C ← α op(A) op(B) + β C`: it reads `A`, `B` and `C` by logical
index and writes in the layout of `C`, a transposed operand is that operand after
`Matrix.transpose`, a zero `β` leaves the entries of `C` unread, and the shapes are
checked before anything else. -/
structure MatMulLaws (f : Transpose → Transpose → α → Matrix β → Matrix α → α → Matrix α →
    Except Error (Matrix α)) : Prop where
  congr : ∀ tA tB alpha beta (a a' : Matrix β) (b b' c c' : Matrix α), SameEntries a a' →
    SameEntries b b' → SameEntries c c' →
      ResultSame (f tA tB alpha a b beta c) (f tA tB alpha a' b' beta c')
  layout : ∀ tA tB alpha beta a b c r, f tA tB alpha a b beta c = .ok r → r.layout = c.layout
  transpose_left : ∀ tB alpha beta a b c,
    f .yes tB alpha a b beta c = f .no tB alpha a.transpose b beta c
  transpose_right : ∀ tA alpha beta a b c,
    f tA .yes alpha a b beta c = f tA .no alpha a b.transpose beta c
  overwrite : ∀ tA tB alpha beta a b (c c' : Matrix α), Element.eq beta Scalar.zero = true →
    c.rows = c'.rows → c.cols = c'.cols → c.layout = c'.layout →
      f tA tB alpha a b beta c = f tA tB alpha a b beta c'
  shape : ∀ tA tB alpha beta a b c,
    ShapeChecked (MmFits tA tB a b c) (f tA tB alpha a b beta c)

theorem mmWith_laws (mul : β → α → α) : MatMulLaws (mmWith mul) where
  congr tA tB alpha beta _ _ _ _ _ _ := mmWith_congr mul tA tB alpha beta
  layout _ _ _ _ _ _ _ _ := mmWith_layout
  transpose_left := mmWith_transpose_left mul
  transpose_right := mmWith_transpose_right mul
  overwrite tA tB alpha beta a b _ _ := mmWith_overwrite mul tA tB alpha beta a b
  shape := mmWith_shapeChecked mul

structure MatVecLaws (f : Transpose → α → Matrix β → Array α → α → Array α →
    Except Error (Array α)) : Prop where
  congr : ∀ t alpha beta (a a' : Matrix β) x y, SameEntries a a' →
    f t alpha a x beta y = f t alpha a' x beta y
  transpose : ∀ alpha beta a x y, f .yes alpha a x beta y = f .no alpha a.transpose x beta y
  overwrite : ∀ t alpha beta a x (y y' : Array α), Element.eq beta Scalar.zero = true →
    y.size = y'.size → f t alpha a x beta y = f t alpha a x beta y'
  shape : ∀ t alpha beta a x y, ShapeChecked (MvFits t a x y) (f t alpha a x beta y)

theorem mvWith_laws (mul : β → α → α) : MatVecLaws (mvWith mul) where
  congr t alpha beta _ _ x y := mvWith_congr mul t alpha beta x y
  transpose := mvWith_transpose mul
  overwrite t alpha beta a x _ _ := mvWith_overwrite mul t alpha beta a x
  shape := mvWith_shapeChecked mul

end Products

section Kernels

variable {α ρ : Type} [Scalar α ρ]

theorem mm_laws : MatMulLaws (β := α) mm :=
  mmWith_laws (· * ·)

theorem mmReal_laws [RealFloat ρ] : MatMulLaws (β := ρ) (mmReal (α := α)) :=
  mmWith_laws fun x y => Scalar.scale y x

theorem mv_laws : MatVecLaws (β := α) mv :=
  mvWith_laws (· * ·)

theorem mvReal_laws [RealFloat ρ] : MatVecLaws (β := ρ) (mvReal (α := α)) :=
  mvWith_laws fun aij xj => Scalar.scale xj aij

theorem mmNew_of_zeros_error {tA tB : Transpose} {alpha : α} {a b : Matrix α} {l : Layout}
    {e : Error}
    (h : (Matrix.zeros (opExtents a tA).1 (opExtents b tB).2 l : Except Error (Matrix α)) =
      .error e) :
    mmNew tA tB alpha a b l = .error e := by
  unfold mmNew
  rw [h]
  rfl

theorem mmNew_of_zeros_ok {tA tB : Transpose} {alpha : α} {a b z : Matrix α} {l : Layout}
    (h : (Matrix.zeros (opExtents a tA).1 (opExtents b tB).2 l : Except Error (Matrix α)) =
      .ok z) :
    mmNew tA tB alpha a b l = mm tA tB alpha a b Scalar.zero z := by
  unfold mmNew
  rw [h]
  rfl

theorem mmNew_congr (tA tB : Transpose) (alpha : α) {a a' b b' : Matrix α} (l l' : Layout)
    (ha : SameEntries a a') (hb : SameEntries b b') :
    ResultSame (mmNew tA tB alpha a b l) (mmNew tA tB alpha a' b' l') := by
  have hA := opExtents_congr ha tA
  have hB := opExtents_congr hb tB
  cases hz : (Matrix.zeros (opExtents a tA).1 (opExtents b tB).2 l :
      Except Error (Matrix α)) with
  | error e =>
      have hz' := (matrix_zeros_error_iff l l').mp hz
      rw [hA, hB] at hz'
      rw [mmNew_of_zeros_error hz, mmNew_of_zeros_error hz']
      rfl
  | ok z =>
      cases hz' : (Matrix.zeros (opExtents a' tA).1 (opExtents b' tB).2 l' :
          Except Error (Matrix α)) with
      | error e =>
          rw [← hA, ← hB, ← matrix_zeros_error_iff l l'] at hz'
          rw [hz] at hz'
          cases hz'
      | ok z' =>
          rw [mmNew_of_zeros_ok hz, mmNew_of_zeros_ok hz']
          rw [← hA, ← hB] at hz'
          exact mm_laws.congr tA tB alpha _ _ _ _ _ _ _ ha hb (matrix_zeros_sameEntries hz hz')

theorem mmNew_layout {tA tB : Transpose} {alpha : α} {a b r : Matrix α} {l : Layout}
    (h : mmNew tA tB alpha a b l = .ok r) : r.layout = l := by
  cases hz : (Matrix.zeros (opExtents a tA).1 (opExtents b tB).2 l :
      Except Error (Matrix α)) with
  | error e =>
      rw [mmNew_of_zeros_error hz] at h
      cases h
  | ok z =>
      rw [mmNew_of_zeros_ok hz] at h
      rw [mm_laws.layout _ _ _ _ _ _ _ _ h]
      exact (matrix_zeros_ok hz).2.2.1

theorem mmNew_transpose_left (tB : Transpose) (alpha : α) (a b : Matrix α) (l : Layout) :
    mmNew .yes tB alpha a b l = mmNew .no tB alpha a.transpose b l := by
  simp only [mmNew, mm, opExtents_yes a, mmWith_transpose_left]

theorem mmNew_transpose_right (tA : Transpose) (alpha : α) (a b : Matrix α) (l : Layout) :
    mmNew tA .yes alpha a b l = mmNew tA .no alpha a b.transpose l := by
  simp only [mmNew, mm, opExtents_yes b, mmWith_transpose_right]

theorem mmNew_allocThenCheck (tA tB : Transpose) (alpha : α) (a b : Matrix α) (l : Layout) :
    AllocThenCheck (Matrix.zeros (opExtents a tA).1 (opExtents b tB).2 l :
        Except Error (Matrix α))
      ((opExtents b tB).1 = (opExtents a tA).2) (mmNew tA tB alpha a b l) := by
  refine ⟨fun e he => mmNew_of_zeros_error he, ?_⟩
  rintro ⟨z, hz⟩
  obtain ⟨hr, hc, -, -⟩ := matrix_zeros_ok hz
  rw [mmNew_of_zeros_ok hz]
  refine (mm_laws.shape tA tB alpha Scalar.zero a b z).of_iff ?_
  simp [MmFits, hr, hc]

theorem mvNew_of_zeros_error {t : Transpose} {alpha : α} {a : Matrix α} {x : Array α}
    {e : Error} (h : (Vector.zeros (opExtents a t).1 : Except Error (Vector α)) = .error e) :
    mvNew t alpha a x = .error e := by
  unfold mvNew
  rw [h]
  rfl

theorem mvNew_of_zeros_ok {t : Transpose} {alpha : α} {a : Matrix α} {x : Array α}
    {y : Vector α} (h : (Vector.zeros (opExtents a t).1 : Except Error (Vector α)) = .ok y) :
    mvNew t alpha a x = Vector.mk <$> mv t alpha a x Scalar.zero y.data := by
  unfold mvNew
  rw [h]
  show (mv t alpha a x Scalar.zero y.data >>= fun r => pure (Vector.mk r)) = _
  cases mv t alpha a x Scalar.zero y.data <;> rfl

theorem mvNew_congr (t : Transpose) (alpha : α) {a a' : Matrix α} (x : Array α)
    (ha : SameEntries a a') : mvNew t alpha a x = mvNew t alpha a' x := by
  have hA := opExtents_congr ha t
  cases hy : (Vector.zeros (opExtents a t).1 : Except Error (Vector α)) with
  | error e =>
      rw [mvNew_of_zeros_error hy, mvNew_of_zeros_error (hA ▸ hy)]
  | ok y =>
      rw [mvNew_of_zeros_ok hy, mvNew_of_zeros_ok (hA ▸ hy),
        mv_laws.congr t alpha Scalar.zero a a' x y.data ha]

theorem mvNew_transpose (alpha : α) (a : Matrix α) (x : Array α) :
    mvNew .yes alpha a x = mvNew .no alpha a.transpose x := by
  simp only [mvNew, mv, opExtents_yes a, mvWith_transpose]

theorem mvNew_allocThenCheck (t : Transpose) (alpha : α) (a : Matrix α) (x : Array α) :
    AllocThenCheck (Vector.zeros (opExtents a t).1 : Except Error (Vector α))
      (x.size = (opExtents a t).2) (mvNew t alpha a x) := by
  refine ⟨fun e he => mvNew_of_zeros_error he, ?_⟩
  rintro ⟨y, hy⟩
  rw [mvNew_of_zeros_ok hy]
  refine ((mv_laws.shape t alpha Scalar.zero a x y.data).map Vector.mk).of_iff ?_
  simp [MvFits, vector_zeros_ok hy]

def diagonalLength {β : Type} (side : Side) (a : Matrix β) : Nat :=
  match side with
  | .left => a.rows
  | .right => a.cols

theorem diagonalLength_congr {a a' : Matrix α} (ha : SameEntries a a') (side : Side) :
    diagonalLength side a = diagonalLength side a' := by
  cases side <;> simp [diagonalLength, ha.rows_eq, ha.cols_eq]

theorem scaleByDiagonal_eq (side : Side) (alpha : α) (a : Matrix α) (d : Array α)
    (invert : Bool) :
    scaleByDiagonal side alpha a d invert =
      if d.size ≠ diagonalLength side a then
        .error (.dimension "scale_by_diagonal" [diagonalLength side a] [d.size])
      else .ok (Matrix.ofFn a.rows a.cols a.layout fun i j =>
        let di := d.getD (match side with | .left => i | .right => j) Element.dflt
        a.read Element.dflt i j * if invert then alpha / di else alpha * di) :=
  rfl

theorem scaleByDiagonal_congr (side : Side) (alpha : α) {a a' : Matrix α} (d : Array α)
    (invert : Bool) (ha : SameEntries a a') :
    ResultSame (scaleByDiagonal side alpha a d invert)
      (scaleByDiagonal side alpha a' d invert) := by
  rw [scaleByDiagonal_eq, scaleByDiagonal_eq, ← diagonalLength_congr ha side, ← ha.rows_eq,
    ← ha.cols_eq]
  by_cases hd : d.size ≠ diagonalLength side a
  · rw [if_pos hd, if_pos hd]
    rfl
  · rw [if_neg hd, if_neg hd]
    refine sameEntries_ofFn _ _ rfl rfl ?_
    intro i j hi hj
    rw [ha.read_eq _ i j hi hj]

theorem scaleByDiagonal_layout {side : Side} {alpha : α} {a r : Matrix α} {d : Array α}
    {invert : Bool} (h : scaleByDiagonal side alpha a d invert = .ok r) :
    r.layout = a.layout := by
  rw [scaleByDiagonal_eq] at h
  by_cases hd : d.size ≠ diagonalLength side a
  · rw [if_pos hd] at h
    cases h
  · rw [if_neg hd] at h
    cases h
    rfl

theorem scaleByDiagonal_shapeChecked (side : Side) (alpha : α) (a : Matrix α) (d : Array α)
    (invert : Bool) :
    ShapeChecked (d.size = diagonalLength side a) (scaleByDiagonal side alpha a d invert) := by
  rw [scaleByDiagonal_eq]
  by_cases hd : d.size ≠ diagonalLength side a
  · rw [if_pos hd]
    exact ⟨by simp; omega, fun e he => by cases he; rfl⟩
  · rw [if_neg hd]
    exact ⟨by simp; omega, fun e he => by cases he⟩

theorem mem_indices {r c i j : Nat} : (i, j) ∈ Matrix.indices r c ↔ i < r ∧ j < c := by
  simp [Matrix.indices]

theorem sumAxis_congr {a a' : Matrix α} (ha : SameEntries a a') (axis : Nat) :
    a.sumAxis axis = a'.sumAxis axis := by
  have hfold : ∀ z : Array α, (Matrix.indices a.rows a.cols).foldl (fun acc (p : Nat × Nat) =>
        let k := if axis = 0 then p.2 else p.1
        acc.setIfInBounds k (acc.getD k Element.dflt + a.read Element.dflt p.1 p.2)) z =
      (Matrix.indices a.rows a.cols).foldl (fun acc (p : Nat × Nat) =>
        let k := if axis = 0 then p.2 else p.1
        acc.setIfInBounds k (acc.getD k Element.dflt + a'.read Element.dflt p.1 p.2)) z := by
    intro z
    apply List.foldl_ext
    rintro acc ⟨i, j⟩ hp
    obtain ⟨hi, hj⟩ := mem_indices.mp hp
    simp only [ha.read_eq _ i j hi hj]
  unfold Matrix.sumAxis
  rw [← ha.rows_eq, ← ha.cols_eq]
  simp only [hfold]

theorem normDiff_shapeChecked [RealFloat ρ] (a b : Matrix α) :
    ShapeChecked (a.rows = b.rows ∧ a.cols = b.cols) (a.normDiff b) := by
  unfold Matrix.normDiff
  split_ifs with h
  · exact ⟨by simp; omega, fun e he => by cases he; rfl⟩
  · exact ⟨by simp; omega, fun e he => by cases he⟩

open DualArrays.Proofs.FloatOrder DualArrays.Proofs.FloatMaximum in
theorem normDiff_congr [RealFloat ρ] [IeeeOrder ρ] {a a' b b' : Matrix α}
    (ha : SameEntries a a') (hb : SameEntries b b') : a.normDiff b = a'.normDiff b' := by
  unfold Matrix.normDiff
  rw [← ha.rows_eq, ← ha.cols_eq, ← hb.rows_eq, ← hb.cols_eq]
  split_ifs with hshape
  · rfl
  · have hdiff : (Matrix.indices a.rows a.cols).foldl (fun d (p : Nat × Nat) =>
          RealFloat.fmax d
            (Scalar.modulus (a.read Element.dflt p.1 p.2 - b.read Element.dflt p.1 p.2)))
          RealFloat.zero =
        (Matrix.indices a.rows a.cols).foldl (fun d (p : Nat × Nat) =>
          RealFloat.fmax d
            (Scalar.modulus (a'.read Element.dflt p.1 p.2 - b'.read Element.dflt p.1 p.2)))
          RealFloat.zero := by
      apply List.foldl_ext
      rintro d ⟨i, j⟩ hp
      obtain ⟨hi, hj⟩ := mem_indices.mp hp
      have hi' : i < b.rows := by omega
      have hj' : j < b.cols := by omega
      simp only [ha.read_eq _ i j hi hj, hb.read_eq _ i j hi' hj']
    have hden : SameUpToZero (RealFloat.fmax a.maxAbs b.maxAbs : ρ)
        (RealFloat.fmax a'.maxAbs b'.maxAbs) :=
      fmax_congr (maximumAbs_congr ha.mem_data) (maximumAbs_congr hb.mem_data)
    simp only [hdiff]
    rw [relative_congr hden]

end Kernels

section Layouts

variable (α ρ : Type) [RealFloat ρ] [Scalar α ρ]

/-- What the dense kernels promise about storage: every result, read by logical index, is
the same for operands and outputs in any layouts, and an output keeps its own layout; a
transposed operand is the operand after `Matrix.transpose`; a zero `β` never reads the
output; and the shapes are checked, those kernels that make a new output allocating it
first. -/
structure DenseKernelLaws : Prop where
  mm_laws : MatMulLaws (β := α) mm
  mmReal_laws : MatMulLaws (β := ρ) (mmReal (α := α))
  mv_laws : MatVecLaws (β := α) mv
  mvReal_laws : MatVecLaws (β := ρ) (mvReal (α := α))
  mmNew_congr : ∀ tA tB (alpha : α) a a' b b' l l', SameEntries a a' → SameEntries b b' →
    ResultSame (mmNew tA tB alpha a b l) (mmNew tA tB alpha a' b' l')
  mmNew_layout : ∀ tA tB (alpha : α) a b l r, mmNew tA tB alpha a b l = .ok r → r.layout = l
  mmNew_transpose_left : ∀ tB (alpha : α) a b l,
    mmNew .yes tB alpha a b l = mmNew .no tB alpha a.transpose b l
  mmNew_transpose_right : ∀ tA (alpha : α) a b l,
    mmNew tA .yes alpha a b l = mmNew tA .no alpha a b.transpose l
  mmNew_shape : ∀ tA tB (alpha : α) a b l,
    AllocThenCheck (Matrix.zeros (opExtents a tA).1 (opExtents b tB).2 l :
        Except Error (Matrix α))
      ((opExtents b tB).1 = (opExtents a tA).2) (mmNew tA tB alpha a b l)
  mvNew_congr : ∀ t (alpha : α) a a' x, SameEntries a a' → mvNew t alpha a x = mvNew t alpha a' x
  mvNew_transpose : ∀ (alpha : α) a x, mvNew .yes alpha a x = mvNew .no alpha a.transpose x
  mvNew_shape : ∀ t (alpha : α) a x,
    AllocThenCheck (Vector.zeros (opExtents a t).1 : Except Error (Vector α))
      (x.size = (opExtents a t).2) (mvNew t alpha a x)
  matmul_congr : ∀ a a' b b' : Matrix α, SameEntries a a' → SameEntries b b' →
    ResultSame (a.matmul b) (a'.matmul b')
  matmul_layout : ∀ a b r : Matrix α, a.matmul b = .ok r → r.layout = a.layout
  matmul_shape : ∀ a b : Matrix α,
    AllocThenCheck (Matrix.zeros a.rows b.cols a.layout : Except Error (Matrix α))
      (b.rows = a.cols) (a.matmul b)
  matvec_congr : ∀ (a a' : Matrix α) x, SameEntries a a' → a.matvec x = a'.matvec x
  matvec_shape : ∀ (a : Matrix α) x,
    AllocThenCheck (Vector.zeros a.rows : Except Error (Vector α)) (x.size = a.cols)
      (a.matvec x)
  scale_congr : ∀ side (alpha : α) a a' d invert, SameEntries a a' →
    ResultSame (scaleByDiagonal side alpha a d invert) (scaleByDiagonal side alpha a' d invert)
  scale_layout : ∀ side (alpha : α) a d invert r,
    scaleByDiagonal side alpha a d invert = .ok r → r.layout = a.layout
  scale_shape : ∀ side (alpha : α) a d invert,
    ShapeChecked (d.size = diagonalLength side a) (scaleByDiagonal side alpha a d invert)
  sumAxis_congr : ∀ (a a' : Matrix α) axis, SameEntries a a' → a.sumAxis axis = a'.sumAxis axis
  normDiff_congr : ∀ a a' b b' : Matrix α, SameEntries a a' → SameEntries b b' →
    a.normDiff b = a'.normDiff b'
  normDiff_shape : ∀ a b : Matrix α,
    ShapeChecked (a.rows = b.rows ∧ a.cols = b.cols) (a.normDiff b)

end Layouts

open DualArrays.Proofs.FloatOrder in
theorem dense_kernels_layout_invariant {α ρ : Type} [RealFloat ρ] [Scalar α ρ] [IeeeOrder ρ] :
    DenseKernelLaws α ρ where
  mm_laws := mm_laws
  mmReal_laws := mmReal_laws
  mv_laws := mv_laws
  mvReal_laws := mvReal_laws
  mmNew_congr tA tB alpha _ _ _ _ l l' := mmNew_congr tA tB alpha l l'
  mmNew_layout _ _ _ _ _ _ _ := mmNew_layout
  mmNew_transpose_left := mmNew_transpose_left
  mmNew_transpose_right := mmNew_transpose_right
  mmNew_shape := mmNew_allocThenCheck
  mvNew_congr t alpha _ _ x := mvNew_congr t alpha x
  mvNew_transpose := mvNew_transpose
  mvNew_shape := mvNew_allocThenCheck
  matmul_congr a a' _ _ := mmNew_congr .no .no Scalar.one a.layout a'.layout
  matmul_layout _ _ _ := mmNew_layout
  matmul_shape a b := mmNew_allocThenCheck .no .no Scalar.one a b a.layout
  matvec_congr _ _ x := mvNew_congr .no Scalar.one x
  matvec_shape a x := mvNew_allocThenCheck .no Scalar.one a x
  scale_congr side alpha _ _ d invert := scaleByDiagonal_congr side alpha d invert
  scale_layout _ _ _ _ _ _ := scaleByDiagonal_layout
  scale_shape := scaleByDiagonal_shapeChecked
  sumAxis_congr _ _ axis ha := sumAxis_congr ha axis
  normDiff_congr _ _ _ _ := normDiff_congr
  normDiff_shape := normDiff_shapeChecked

theorem dense_kernels_layout_invariant_complex64 : DenseKernelLaws (Complex Float) Float :=
  dense_kernels_layout_invariant

/-- A product into a new vector allocates the vector before it checks the shapes: here the
shapes do not fit, and the allocation's error is returned. -/
theorem mvNew_allocates_before_shape_check :
    let a : Matrix Float := ⟨2 ^ 61, 0, .row, #[], by decide⟩
    (#[(1.0 : Float)]).size ≠ a.cols ∧
      mvNew .no (1.0 : Float) a #[1.0] =
        .error (.allocation "Vector" [2 ^ 61] .capacityOverflow) := by
  refine ⟨by decide, ?_⟩
  rfl

end DualArrays.Proofs.DenseKernels
