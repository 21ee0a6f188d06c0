import Mathlib
import DualArrays.Nested

namespace DualArrays.Proofs.InPlaceWrites

open DualArrays

section Laws

variable {σ α : Type}

/-- An operation that, whenever it fails, leaves its container as it found it. -/
def Atomic (m : InPlace σ α) : Prop :=
  ∀ s e s', m.run s = (.error e, s') → s' = s

theorem atomic_of_run {m : InPlace σ α}
    (h : ∀ s, (∃ a s', m.run s = (.ok a, s')) ∨ ∃ e, m.run s = (.error e, s)) : Atomic m := by
  intro s e s' hrun
  rcases h s with ⟨a, s'', hok⟩ | ⟨e', herr⟩
  · rw [hok] at hrun
    cases hrun
  · rw [herr] at hrun
    cases hrun
    rfl

end Laws

section Vectors

variable {α ρ : Type} [Scalar α ρ]

theorem axpyIn_run (alpha : α) (x y : Array α) :
    (Reduce.axpyIn alpha x).run y =
      if x.size = y.size then (.ok (), Array.zipWith (fun yi xi => yi + alpha * xi) y x)
      else (.error (.dimension "math::axpy" [x.size] [y.size]), y) := by
  by_cases h : x.size = y.size <;> simp [Reduce.axpyIn, Reduce.sameLen, h]

omit [Scalar α ρ] in
theorem vector_setIn_run (i : Nat) (x : α) (v : Vector α) :
    (Vector.setIn i x).run v =
      if i < v.size then (.ok (), ⟨v.data.set! i x⟩) else (.error (v.indexError i), v) := by
  by_cases h : i < v.size <;> simp [Vector.setIn, h]

theorem vector_addToIn_run (b : Array α) (v : Vector α) :
    (Vector.addToIn b).run v =
      if b.size ≠ v.size then (.error (.dimension "Vector::add_to" [v.size] [b.size]), v)
      else (.ok (), ⟨Array.zipWith (· + ·) v.data b⟩) := by
  by_cases h : b.size ≠ v.size <;> simp [Vector.addToIn, h]

theorem vector_resizeIn_atomic (n : Nat) : Atomic (Vector.resizeIn (α := α) n) := by
  refine atomic_of_run fun v => ?_
  by_cases hn : n = 0
  · simp [Vector.resizeIn, hn]
  by_cases hgrow : n > v.size
  · cases hr : Storage.reserve "Vector" [n] n (Element.size α) with
    | error e => simp [Vector.resizeIn, hn, hgrow, hr]
    | ok u => simp [Vector.resizeIn, hn, hgrow, hr]
  · simp [Vector.resizeIn, hn, hgrow]

end Vectors

section Matrices

variable {α ρ : Type} [Scalar α ρ] (m : Matrix α)

theorem matrix_setIn_run (i j : Nat) (x : α) :
    (Matrix.setIn i j x).run m =
      if i ≥ m.rows ∨ j ≥ m.cols then (.error (m.indexError i j), m)
      else (.ok (), m.setAt (m.offset i j) x) := by
  by_cases h : i ≥ m.rows ∨ j ≥ m.cols <;> simp [Matrix.setIn, h]

theorem matrix_setRowIn_run (i : Nat) (src : Array α) :
    (Matrix.setRowIn i src).run m =
      if i ≥ m.rows then (.error (m.indexError i 0), m)
      else if m.cols ≠ src.size then (.error (.dimension "Matrix::set_row" [m.cols] [src.size]), m)
      else (.ok (), m.writeAll (src.toList.zipIdx.map fun (x, j) => ((i, j), x))) := by
  by_cases hi : i ≥ m.rows <;> by_cases hc : m.cols ≠ src.size <;>
    simp [Matrix.setRowIn, hi, hc]

theorem matrix_setColIn_run (j : Nat) (src : Array α) :
    (Matrix.setColIn j src).run m =
      if j ≥ m.cols then (.error (m.indexError 0 j), m)
      else if m.rows ≠ src.size then (.error (.dimension "Matrix::set_col" [m.rows] [src.size]), m)
      else (.ok (), m.writeAll (src.toList.zipIdx.map fun (x, i) => ((i, j), x))) := by
  by_cases hj : j ≥ m.cols <;> by_cases hr : m.rows ≠ src.size <;>
    simp [Matrix.setColIn, hj, hr]

theorem matrix_setColToValIn_run (j : Nat) (x : α) :
    (Matrix.setColToValIn j x).run m =
      if j ≥ m.cols then (.error (m.indexError 0 j), m)
      else (.ok (), m.writeAll ((List.range m.rows).map fun i => ((i, j), x))) := by
  by_cases hj : j ≥ m.cols <;> simp [Matrix.setColToValIn, hj]

theorem matrix_setBlockIn_run (row0 col0 : Nat) (src : Matrix α) :
    (Matrix.setBlockIn row0 col0 src).run m =
      if row0 + src.rows ≤ m.rows ∧ col0 + src.cols ≤ m.cols then
        (.ok (), m.writeAll ((Matrix.indices src.rows src.cols).map fun (i, j) =>
          ((row0 + i, col0 + j), src.read Element.dflt i j)))
      else (.error (m.indexError (Word.addSat row0 src.rows) (Word.addSat col0 src.cols)), m) := by
  by_cases h : row0 + src.rows ≤ m.rows ∧ col0 + src.cols ≤ m.cols <;>
    simp [Matrix.setBlockIn, Matrix.checkBlock, h]

theorem matrix_addBlockIn_atomic (row0 col0 : Nat) (src : Matrix α) :
    Atomic (Matrix.addBlockIn row0 col0 src) := by
  refine atomic_of_run fun m => ?_
  by_cases h : row0 + src.rows ≤ m.rows ∧ col0 + src.cols ≤ m.cols <;>
    simp [Matrix.addBlockIn, Matrix.checkBlock, h]

theorem matrix_setLayoutIn_run (l : Layout) :
    (Matrix.setLayoutIn l).run m =
      if m.layout = l then (.ok (), m)
      else match m.toLayout l with
        | .ok m' => (.ok (), m')
        | .error e => (.error e, m) := by
  by_cases h : m.layout = l
  · simp [Matrix.setLayoutIn, h]
  · cases hl : m.toLayout l <;> simp [Matrix.setLayoutIn, h, hl]

end Matrices

section Containers

variable {α : Type}

theorem multiarray_setIn_run [Element α] (m : Multiarray α) (index : List Nat) (x : α) :
    (Multiarray.setIn index x).run m =
      if m.contains index then (.ok (), { m with data := m.data.setIfInBounds (m.offset index) x })
      else (.error (m.indexError index), m) := by
  cases h : m.contains index <;> simp [Multiarray.setIn, h]

theorem vectorArray_setIn_run (a : VectorArray α) (index : List Nat) (v : Vector α) :
    (VectorArray.setIn index v).run a =
      match a.flatIndex index with
      | .ok k => (.ok (), { a with entries := a.entries.setIfInBounds k v })
      | .error e => (.error e, a) := by
  cases h : a.flatIndex index <;> simp [VectorArray.setIn, h]

theorem level_setIn_run (l : Level α) (i : Nat) (x : α) :
    (Level.setIn i x).run l =
      if i < l.size then (.ok (l.slots.getD i none), ⟨l.slots.setIfInBounds i (some x)⟩)
      else (.error (l.indexError i), l) := by
  by_cases h : i < l.size <;> simp [Level.setIn, h]

end Containers

section SortIndexed

variable {α : Type}

theorem foldlM_moveEntry_run (E : Array (Vector α)) (ks : List Nat) (hks : ks.Nodup)
    (old : Array (Option (Vector α))) (hold : ∀ k ∈ ks, old.getD k none = some (E.getD k ⟨#[]⟩))
    (a : VectorArray α) :
    ∃ old', (ks.foldlM VectorArray.moveEntry old).run a =
      (.ok old', { a with entries := a.entries ++ (ks.map fun k => E.getD k ⟨#[]⟩).toArray }) := by
  induction ks generalizing old a with
  | nil => exact ⟨old, by simp⟩
  | cons k ks ih =>
    obtain ⟨hk, hnd⟩ := List.nodup_cons.mp hks
    have hrest : ∀ j ∈ ks, (old.setIfInBounds k none).getD j none = some (E.getD j ⟨#[]⟩) := by
      intro j hj
      have hjk : k ≠ j := fun h => hk (h ▸ hj)
      simpa [Array.getElem?_setIfInBounds_ne hjk] using hold j (List.mem_cons_of_mem k hj)
    obtain ⟨old', hrun⟩ := ih hnd (old.setIfInBounds k none) hrest
      { a with entries := a.entries.push (E.getD k ⟨#[]⟩) }
    refine ⟨old', ?_⟩
    simp only [Array.getD_eq_getD_getElem?] at hrun
    simp [List.foldlM_cons, VectorArray.moveEntry, hold k List.mem_cons_self, hrun]

theorem ordering_perm (a : VectorArray α) (lt : α → α → Bool) :
    (a.ordering lt).Perm (List.range a.entries.size) :=
  List.mergeSort_perm _ _

theorem sortIndexedIn_run (a : VectorArray α) (lt : α → α → Bool) :
    (VectorArray.sortIndexedIn lt).run a =
      (.ok ((a.sortEntries lt).ordering lt),
        { a.sortEntries lt with
          entries := (((a.sortEntries lt).ordering lt).map fun k =>
            (a.sortEntries lt).entries.getD k ⟨#[]⟩).toArray }) := by
  set s := a.sortEntries lt with hs
  have hperm := ordering_perm s lt
  have hnd : (s.ordering lt).Nodup := hperm.nodup_iff.mpr List.nodup_range
  -- the drained slots hold every entry the ordering names, since it names only positions
  have hold : ∀ k ∈ s.ordering lt, (s.entries.map some).getD k none = some (s.entries.getD k ⟨#[]⟩) := by
    intro k hk
    have hlt : k < s.entries.size := List.mem_range.mp (hperm.mem_iff.mp hk)
    simp [hlt]
  obtain ⟨old', hrun⟩ := foldlM_moveEntry_run s.entries _ hnd _ hold { s with entries := #[] }
  simp only [Array.empty_append, Array.getD_eq_getD_getElem?] at hrun
  simp [VectorArray.sortIndexedIn, ← hs, hrun]

end SortIndexed

section Atomicity

variable {α ρ : Type} [Scalar α ρ]

theorem axpyIn_atomic (alpha : α) (x : Array α) : Atomic (Reduce.axpyIn alpha x) :=
  atomic_of_run fun y => by rw [axpyIn_run]; split_ifs <;> simp

theorem vector_setIn_atomic (i : Nat) (x : α) : Atomic (Vector.setIn i x) :=
  atomic_of_run fun v => by rw [vector_setIn_run]; split_ifs <;> simp

theorem vector_addToIn_atomic (b : Array α) : Atomic (Vector.addToIn b) :=
  atomic_of_run fun v => by rw [vector_addToIn_run]; split_ifs <;> simp

theorem matrix_setIn_atomic (i j : Nat) (x : α) : Atomic (Matrix.setIn i j x) :=
  atomic_of_run fun m => by rw [matrix_setIn_run]; split_ifs <;> simp

theorem matrix_setRowIn_atomic (i : Nat) (src : Array α) : Atomic (Matrix.setRowIn i src) :=
  atomic_of_run fun m => by rw [matrix_setRowIn_run]; split_ifs <;> simp

theorem matrix_setColIn_atomic (j : Nat) (src : Array α) : Atomic (Matrix.setColIn j src) :=
  atomic_of_run fun m => by rw [matrix_setColIn_run]; split_ifs <;> simp

theorem matrix_setColToValIn_atomic (j : Nat) (x : α) : Atomic (Matrix.setColToValIn j x) :=
  atomic_of_run fun m => by rw [matrix_setColToValIn_run]; split_ifs <;> simp

theorem matrix_setBlockIn_atomic (row0 col0 : Nat) (src : Matrix α) :
    Atomic (Matrix.setBlockIn row0 col0 src) :=
  atomic_of_run fun m => by rw [matrix_setBlockIn_run]; split_ifs <;> simp

theorem matrix_setLayoutIn_atomic (l : Layout) : Atomic (Matrix.setLayoutIn (α := α) l) :=
  atomic_of_run fun m => by rw [matrix_setLayoutIn_run]; split_ifs <;> [simp; split <;> simp]

omit [Scalar α ρ] in
theorem multiarray_setIn_atomic [Element α] (index : List Nat) (x : α) :
    Atomic (Multiarray.setIn index x) :=
  atomic_of_run fun m => by rw [multiarray_setIn_run]; split_ifs <;> simp

omit [Scalar α ρ] in
theorem vectorArray_setIn_atomic (index : List Nat) (v : Vector α) :
    Atomic (VectorArray.setIn index v) :=
  atomic_of_run fun a => by rw [vectorArray_setIn_run]; split <;> simp

omit [Scalar α ρ] in
theorem level_setIn_atomic (i : Nat) (x : α) : Atomic (Level.setIn i x) :=
  atomic_of_run fun l => by rw [level_setIn_run]; split_ifs <;> simp

end Atomicity

section Writes

variable (α ρ : Type) [Scalar α ρ]

/-- What the library promises of its writes: every mutating operation that fails has left its
container as it found it, and sorting a vector array with its ordering never fails. -/
structure WritesAtomic : Prop where
  axpy : ∀ (alpha : α) (x : Array α), Atomic (Reduce.axpyIn alpha x)
  vector_set : ∀ (i : Nat) (x : α), Atomic (Vector.setIn i x)
  vector_resize : ∀ n : Nat, Atomic (Vector.resizeIn (α := α) n)
  vector_add_to : ∀ b : Array α, Atomic (Vector.addToIn b)
  matrix_set : ∀ (i j : Nat) (x : α), Atomic (Matrix.setIn i j x)
  matrix_set_row : ∀ (i : Nat) (src : Array α), Atomic (Matrix.setRowIn i src)
  matrix_set_col : ∀ (j : Nat) (src : Array α), Atomic (Matrix.setColIn j src)
  matrix_set_col_to_val : ∀ (j : Nat) (x : α), Atomic (Matrix.setColToValIn j x)
  matrix_set_block : ∀ (row0 col0 : Nat) (src : Matrix α),
    Atomic (Matrix.setBlockIn row0 col0 src)
  matrix_add_block : ∀ (row0 col0 : Nat) (src : Matrix α),
    Atomic (Matrix.addBlockIn row0 col0 src)
  matrix_set_layout : ∀ l : Layout, Atomic (Matrix.setLayoutIn (α := α) l)
  multiarray_set : ∀ (index : List Nat) (x : α), Atomic (Multiarray.setIn index x)
  vector_array_set : ∀ (index : List Nat) (v : Vector α), Atomic (VectorArray.setIn index v)
  level_set : ∀ (ν : Type) (i : Nat) (x : ν), Atomic (Level.setIn i x)
  sort_indexed_ok : ∀ (lt : α → α → Bool) (a : VectorArray α),
    ∃ ordering a', (VectorArray.sortIndexedIn lt).run a = (.ok ordering, a')

theorem failed_writes_atomic : WritesAtomic α ρ where
  axpy := axpyIn_atomic
  vector_set := vector_setIn_atomic
  vector_resize := vector_resizeIn_atomic
  vector_add_to := vector_addToIn_atomic
  matrix_set := matrix_setIn_atomic
  matrix_set_row := matrix_setRowIn_atomic
  matrix_set_col := matrix_setColIn_atomic
  matrix_set_col_to_val := matrix_setColToValIn_atomic
  matrix_set_block := matrix_setBlockIn_atomic
  matrix_add_block := matrix_addBlockIn_atomic
  matrix_set_layout := matrix_setLayoutIn_atomic
  multiarray_set := multiarray_setIn_atomic
  vector_array_set := vectorArray_setIn_atomic
  level_set _ := level_setIn_atomic
  sort_indexed_ok lt a := ⟨_, _, sortIndexedIn_run a lt⟩

end Writes

end DualArrays.Proofs.InPlaceWrites
