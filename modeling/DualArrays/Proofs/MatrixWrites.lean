import DualArrays.Proofs.InPlaceWrites
import DualArrays.Proofs.DenseKernels

namespace DualArrays.Proofs.MatrixWrites

open DualArrays DualArrays.Proofs.MatrixEntries DualArrays.Proofs.InPlaceWrites
open DualArrays.Proofs.DenseKernels

section Rewrites

variable {α β : Type} [Element α]

structure Rewrites (m m' : Matrix α) (addressed : Nat → Nat → Prop) (value : Nat → Nat → α) :
    Prop where
  rows_eq : m'.rows = m.rows
  cols_eq : m'.cols = m.cols
  layout_eq : m'.layout = m.layout
  get_addressed : ∀ i j, addressed i j → m'.get i j = .ok (value i j)
  get_other : ∀ i j, ¬addressed i j → m'.get i j = m.get i j

/-- The outcome of a setter on `m`: it succeeds exactly when `fits` holds, and what it returns
is `m` with the addressed entries rewritten. -/
structure WritesExactly (r : Except Error (Matrix α)) (m : Matrix α) (fits : Prop)
    (addressed : Nat → Nat → Prop) (value : Nat → Nat → α) : Prop where
  ok_iff : (∃ m', r = .ok m') ↔ fits
  rewrites : ∀ m', r = .ok m' → Rewrites m m' addressed value

theorem WritesExactly.of_eq_ok_iff {r : Except Error (Matrix α)} {m m₀ : Matrix α} {fits : Prop}
    {addressed : Nat → Nat → Prop} {value : Nat → Nat → α} (h : ∀ m', r = .ok m' ↔ fits ∧ m' = m₀)
    (hw : fits → Rewrites m m₀ addressed value) : WritesExactly r m fits addressed value := by
  refine ⟨⟨fun ⟨m', hm'⟩ => ((h m').mp hm').1, fun hfits => ⟨m₀, (h m₀).mpr ⟨hfits, rfl⟩⟩⟩, ?_⟩
  intro m' hm'
  obtain ⟨hfits, rfl⟩ := (h m').mp hm'
  exact hw hfits

theorem rewrites_foldl (pos : β → Nat × Nat) (val : β → α → α) {m : Matrix α} {xs : List β}
    (hnd : (xs.map pos).Nodup) (hin : ∀ x ∈ xs, (pos x).1 < m.rows ∧ (pos x).2 < m.cols)
    {addressed : Nat → Nat → Prop} {value : Nat → Nat → α}
    (haddr : ∀ i j, addressed i j ↔ ∃ x ∈ xs, pos x = (i, j))
    (hval : ∀ x ∈ xs, val x (m.read Element.dflt (pos x).1 (pos x).2) = value (pos x).1 (pos x).2) :
    Rewrites m (xs.foldl (writeStep pos val) m) addressed value := by
  obtain ⟨hr, hc, hl⟩ := foldl_writeStep_shape pos val xs m
  refine ⟨hr, hc, hl, ?_, ?_⟩
  · intro i j hij
    obtain ⟨x, hx, hpos⟩ := (haddr i j).mp hij
    obtain ⟨rfl, rfl⟩ : (pos x).1 = i ∧ (pos x).2 = j := Prod.ext_iff.mp hpos
    obtain ⟨hi, hj⟩ := hin x hx
    rw [get_of_lt _ (hr ▸ hi) (hc ▸ hj), read_foldl_writeStep_of_mem pos val hnd hin hx,
      hval x hx]
  · intro i j hij
    refine get_congr hr hc fun hi hj => ?_
    exact read_foldl_writeStep_of_forall_ne pos val (q := (i, j)) hin hi hj
      (fun x hx hpos => hij ((haddr i j).mpr ⟨x, hx, hpos⟩)) _

theorem writeAll_map (m : Matrix α) (xs : List β) (g : β → (Nat × Nat) × α) :
    m.writeAll (xs.map g) = xs.foldl (writeStep (fun x => (g x).1) fun x _ => (g x).2) m := by
  simp only [Matrix.writeAll, List.foldl_map]
  rfl

theorem writeAll_zipIdx (m : Matrix α) (src : Array α) (f : Nat → Nat × Nat) :
    m.writeAll (src.toList.zipIdx.map fun (x, k) => (f k, x)) =
      src.toList.zipIdx.foldl (writeStep (fun p => f p.2) fun p _ => p.1) m := by
  simp only [Matrix.writeAll, List.foldl_map]
  rfl

omit [Element α] in
theorem zipIdx_map_nodup {f : Nat → Nat × Nat} (hf : Function.Injective f) (xs : List α) :
    (xs.zipIdx.map fun p => f p.2).Nodup := by
  have h : (xs.zipIdx.map fun p => f p.2) = (xs.zipIdx.map Prod.snd).map f := by
    rw [List.map_map]
    rfl
  rw [h, List.zipIdx_map_snd]
  exact (List.nodup_range' ..).map hf

theorem mem_zipIdx_getD {src : Array α} {p : α × Nat} (hp : p ∈ src.toList.zipIdx) :
    p.2 < src.size ∧ src.getD p.2 Element.dflt = p.1 := by
  have h := List.mem_zipIdx_iff_getElem?.mp hp
  rw [Array.getElem?_toList] at h
  obtain ⟨hlt, hget⟩ := Array.getElem?_eq_some_iff.mp h
  exact ⟨hlt, by simp [hlt, hget]⟩

theorem mem_zipIdx_of_lt (src : Array α) {k : Nat} (hk : k < src.size) :
    (src.getD k Element.dflt, k) ∈ src.toList.zipIdx := by
  rw [List.mem_zipIdx_iff_getElem?]
  simp [hk]

end Rewrites

section Setters

variable {α ρ : Type} [Scalar α ρ] (m : Matrix α)

def InBlock (row0 col0 : Nat) (src : Matrix α) (i j : Nat) : Prop :=
  row0 ≤ i ∧ i < row0 + src.rows ∧ col0 ≤ j ∧ j < col0 + src.cols

theorem set_eq_ok_iff (i j : Nat) (x : α) (m' : Matrix α) :
    m.set i j x = .ok m' ↔ (i < m.rows ∧ j < m.cols) ∧ m' = m.setAt (m.offset i j) x := by
  rw [Matrix.set, InPlace.apply_eq_ok, matrix_setIn_run]
  split_ifs with h
  · simp only [Prod.mk.injEq, reduceCtorEq, false_and, false_iff]
    omega
  · simp only [Prod.mk.injEq, true_and]
    exact ⟨fun h' => ⟨by omega, h'.symm⟩, fun h' => h'.2.symm⟩

theorem setRow_eq_ok_iff (i : Nat) (src : Array α) (m' : Matrix α) :
    m.setRow i src = .ok m' ↔ (i < m.rows ∧ src.size = m.cols) ∧
      m' = m.writeAll (src.toList.zipIdx.map fun (x, j) => ((i, j), x)) := by
  rw [Matrix.setRow, InPlace.apply_eq_ok, matrix_setRowIn_run]
  split_ifs with hi hc
  · simp only [Prod.mk.injEq, reduceCtorEq, false_and, false_iff]
    omega
  · simp only [Prod.mk.injEq, reduceCtorEq, false_and, false_iff]
    omega
  · simp only [Prod.mk.injEq, true_and]
    exact ⟨fun h => ⟨by omega, h.symm⟩, fun h => h.2.symm⟩

theorem setCol_eq_ok_iff (j : Nat) (src : Array α) (m' : Matrix α) :
    m.setCol j src = .ok m' ↔ (j < m.cols ∧ src.size = m.rows) ∧
      m' = m.writeAll (src.toList.zipIdx.map fun (x, i) => ((i, j), x)) := by
  rw [Matrix.setCol, InPlace.apply_eq_ok, matrix_setColIn_run]
  split_ifs with hj hr
  · simp only [Prod.mk.injEq, reduceCtorEq, false_and, false_iff]
    omega
  · simp only [Prod.mk.injEq, reduceCtorEq, false_and, false_iff]
    omega
  · simp only [Prod.mk.injEq, true_and]
    exact ⟨fun h => ⟨by omega, h.symm⟩, fun h => h.2.symm⟩

theorem setColToVal_eq_ok_iff (j : Nat) (x : α) (m' : Matrix α) :
    m.setColToVal j x = .ok m' ↔ j < m.cols ∧
      m' = m.writeAll ((List.range m.rows).map fun i => ((i, j), x)) := by
  rw [Matrix.setColToVal, InPlace.apply_eq_ok, matrix_setColToValIn_run]
  split_ifs with hj
  · simp only [Prod.mk.injEq, reduceCtorEq, false_and, false_iff]
    omega
  · simp only [Prod.mk.injEq, true_and]
    exact ⟨fun h => ⟨by omega, h.symm⟩, fun h => h.2.symm⟩

theorem setBlock_eq_ok_iff (row0 col0 : Nat) (src m' : Matrix α) :
    m.setBlock row0 col0 src = .ok m' ↔
      (row0 + src.rows ≤ m.rows ∧ col0 + src.cols ≤ m.cols) ∧
        m' = m.writeAll ((Matrix.indices src.rows src.cols).map fun (i, j) =>
          ((row0 + i, col0 + j), src.read Element.dflt i j)) := by
  rw [Matrix.setBlock, InPlace.apply_eq_ok, matrix_setBlockIn_run]
  split_ifs with h
  · simp only [Prod.mk.injEq, true_and]
    exact ⟨fun h' => ⟨h, h'.symm⟩, fun h' => h'.2.symm⟩
  · simp only [Prod.mk.injEq, reduceCtorEq, false_and, false_iff]
    exact fun h' => h h'.1

theorem addBlockIn_run (row0 col0 : Nat) (src : Matrix α) :
    (Matrix.addBlockIn row0 col0 src).run m =
      if row0 + src.rows ≤ m.rows ∧ col0 + src.cols ≤ m.cols then
        (.ok (), (Matrix.indices src.rows src.cols).foldl
          (writeStep (fun p => (row0 + p.1, col0 + p.2))
            fun p old => old + src.read Element.dflt p.1 p.2) m)
      else (.error (m.indexError (Word.addSat row0 src.rows) (Word.addSat col0 src.cols)), m) := by
  by_cases h : row0 + src.rows ≤ m.rows ∧ col0 + src.cols ≤ m.cols
  · simp only [Matrix.addBlockIn, Matrix.checkBlock, h, and_self, if_true, InPlace.run_bind,
      InPlace.run_get, InPlace.run_lift, InPlace.run_modify]
    rfl
  · simp [Matrix.addBlockIn, Matrix.checkBlock, h]

theorem addBlock_eq_ok_iff (row0 col0 : Nat) (src m' : Matrix α) :
    m.addBlock row0 col0 src = .ok m' ↔
      (row0 + src.rows ≤ m.rows ∧ col0 + src.cols ≤ m.cols) ∧
        m' = (Matrix.indices src.rows src.cols).foldl
          (writeStep (fun p => (row0 + p.1, col0 + p.2))
            fun p old => old + src.read Element.dflt p.1 p.2) m := by
  rw [Matrix.addBlock, InPlace.apply_eq_ok, addBlockIn_run]
  split_ifs with h
  · simp only [Prod.mk.injEq, true_and]
    exact ⟨fun h' => ⟨h, h'.symm⟩, fun h' => h'.2.symm⟩
  · simp only [Prod.mk.injEq, reduceCtorEq, false_and, false_iff]
    exact fun h' => h h'.1

theorem set_rewrites {i j : Nat} (hi : i < m.rows) (hj : j < m.cols) (x : α) :
    Rewrites m (m.setAt (m.offset i j) x) (fun i' j' => i' = i ∧ j' = j) fun _ _ => x := by
  show Rewrites m ([((i, j), x)].foldl (writeStep Prod.fst fun w _ => w.2) m) _ _
  refine rewrites_foldl _ _ (by simp) (by simpa using ⟨hi, hj⟩) ?_ (by simp)
  intro i' j'
  simp [eq_comm]

theorem setRow_rewrites {i : Nat} (hi : i < m.rows) {src : Array α} (hsize : src.size = m.cols) :
    Rewrites m (m.writeAll (src.toList.zipIdx.map fun (x, j) => ((i, j), x)))
      (fun i' j' => i' = i ∧ j' < m.cols) fun _ j' => src.getD j' Element.dflt := by
  rw [writeAll_zipIdx m src (Prod.mk i)]
  refine rewrites_foldl _ _ (zipIdx_map_nodup (fun _ _ h => (Prod.mk.inj h).2) _) ?_ ?_ ?_
  · intro p hp
    exact ⟨hi, hsize ▸ (mem_zipIdx_getD hp).1⟩
  · intro i' j'
    constructor
    · rintro ⟨rfl, hj'⟩
      exact ⟨_, mem_zipIdx_of_lt src (hsize ▸ hj'), rfl⟩
    · rintro ⟨p, hp, hpos⟩
      obtain ⟨rfl, rfl⟩ := Prod.ext_iff.mp hpos
      exact ⟨rfl, hsize ▸ (mem_zipIdx_getD hp).1⟩
  · intro p hp
    exact (mem_zipIdx_getD hp).2.symm

theorem setCol_rewrites {j : Nat} (hj : j < m.cols) {src : Array α} (hsize : src.size = m.rows) :
    Rewrites m (m.writeAll (src.toList.zipIdx.map fun (x, i) => ((i, j), x)))
      (fun i' j' => j' = j ∧ i' < m.rows) fun i' _ => src.getD i' Element.dflt := by
  rw [writeAll_zipIdx m src (fun i => (i, j))]
  refine rewrites_foldl _ _ (zipIdx_map_nodup (fun _ _ h => (Prod.mk.inj h).1) _) ?_ ?_ ?_
  · intro p hp
    exact ⟨hsize ▸ (mem_zipIdx_getD hp).1, hj⟩
  · intro i' j'
    constructor
    · rintro ⟨rfl, hi'⟩
      exact ⟨_, mem_zipIdx_of_lt src (hsize ▸ hi'), rfl⟩
    · rintro ⟨p, hp, hpos⟩
      obtain ⟨rfl, rfl⟩ := Prod.ext_iff.mp hpos
      exact ⟨rfl, hsize ▸ (mem_zipIdx_getD hp).1⟩
  · intro p hp
    exact (mem_zipIdx_getD hp).2.symm

theorem setColToVal_rewrites {j : Nat} (hj : j < m.cols) (x : α) :
    Rewrites m (m.writeAll ((List.range m.rows).map fun i => ((i, j), x)))
      (fun i' j' => j' = j ∧ i' < m.rows) fun _ _ => x := by
  rw [writeAll_map]
  refine rewrites_foldl _ _ ?_ ?_ ?_ (fun _ _ => rfl)
  · exact List.nodup_range.map fun _ _ h => (Prod.mk.inj h).1
  · intro i hi
    exact ⟨List.mem_range.mp hi, hj⟩
  · intro i' j'
    simp only [List.mem_range, Prod.mk.injEq]
    constructor
    · rintro ⟨rfl, hi'⟩
      exact ⟨i', hi', rfl, rfl⟩
    · rintro ⟨i, hi, rfl, rfl⟩
      exact ⟨rfl, hi⟩

theorem inBlock_iff {row0 col0 : Nat} {src : Matrix α} {i j : Nat} :
    InBlock row0 col0 src i j ↔
      ∃ p ∈ Matrix.indices src.rows src.cols, (row0 + p.1, col0 + p.2) = (i, j) := by
  constructor
  · rintro ⟨h₁, h₂, h₃, h₄⟩
    exact ⟨(i - row0, j - col0), mem_indices.mpr ⟨by omega, by omega⟩,
      Prod.ext (by simp only; omega) (by simp only; omega)⟩
  · rintro ⟨⟨a, b⟩, hp, hpos⟩
    obtain ⟨ha, hb⟩ := mem_indices.mp hp
    obtain ⟨rfl, rfl⟩ := Prod.ext_iff.mp hpos
    exact ⟨by simp, by simp [ha], by simp, by simp [hb]⟩

theorem indices_shift_nodup (row0 col0 r c : Nat) :
    ((Matrix.indices r c).map fun p => (row0 + p.1, col0 + p.2)).Nodup := by
  refine List.Nodup.map (fun p q h => ?_) ?_
  · obtain ⟨h₁, h₂⟩ := Prod.ext_iff.mp h
    exact Prod.ext (by simpa using h₁) (by simpa using h₂)
  · simp only [Matrix.indices]
    refine List.nodup_flatMap.mpr ⟨fun i _ => (List.nodup_range).map fun _ _ h => (Prod.mk.inj h).2, ?_⟩
    refine List.pairwise_lt_range.imp fun {i i'} hlt => ?_
    rw [Function.onFun, List.disjoint_left]
    intro p hp hp'
    obtain ⟨_, -, rfl⟩ := List.mem_map.mp hp
    obtain ⟨_, -, h⟩ := List.mem_map.mp hp'
    exact absurd (Prod.mk.inj h).1 (by omega)

theorem setBlock_rewrites {row0 col0 : Nat} {src : Matrix α} (hrow : row0 + src.rows ≤ m.rows)
    (hcol : col0 + src.cols ≤ m.cols) :
    Rewrites m (m.writeAll ((Matrix.indices src.rows src.cols).map fun (i, j) =>
        ((row0 + i, col0 + j), src.read Element.dflt i j)))
      (InBlock row0 col0 src) fun i j => src.read Element.dflt (i - row0) (j - col0) := by
  rw [writeAll_map]
  refine rewrites_foldl _ _ (indices_shift_nodup row0 col0 _ _) ?_ (fun _ _ => inBlock_iff) ?_
  · rintro ⟨a, b⟩ hp
    obtain ⟨ha, hb⟩ := mem_indices.mp hp
    exact ⟨by simp only; omega, by simp only; omega⟩
  · rintro ⟨a, b⟩ -
    simp

theorem addBlock_rewrites {row0 col0 : Nat} {src : Matrix α} (hrow : row0 + src.rows ≤ m.rows)
    (hcol : col0 + src.cols ≤ m.cols) :
    Rewrites m ((Matrix.indices src.rows src.cols).foldl
        (writeStep (fun p => (row0 + p.1, col0 + p.2))
          fun p old => old + src.read Element.dflt p.1 p.2) m)
      (InBlock row0 col0 src)
      fun i j => m.read Element.dflt i j + src.read Element.dflt (i - row0) (j - col0) := by
  refine rewrites_foldl _ _ (indices_shift_nodup row0 col0 _ _) ?_ (fun _ _ => inBlock_iff) ?_
  · rintro ⟨a, b⟩ hp
    obtain ⟨ha, hb⟩ := mem_indices.mp hp
    exact ⟨by omega, by omega⟩
  · rintro ⟨a, b⟩ -
    simp

end Setters

section Main

variable (α ρ : Type) [Scalar α ρ]

/-- What the setters of a matrix promise, for a matrix in either layout and a block in either
layout: each succeeds exactly when what it addresses lies inside the matrix, and then rewrites
exactly the addressed entries. A block's entry `(i, j)` goes to `(row0 + i, col0 + j)`. -/
structure SettersWriteAddressed : Prop where
  set : ∀ (m : Matrix α) (i j : Nat) (x : α),
    WritesExactly (m.set i j x) m (i < m.rows ∧ j < m.cols) (fun i' j' => i' = i ∧ j' = j)
      fun _ _ => x
  set_row : ∀ (m : Matrix α) (i : Nat) (src : Array α),
    WritesExactly (m.setRow i src) m (i < m.rows ∧ src.size = m.cols)
      (fun i' j' => i' = i ∧ j' < m.cols) fun _ j' => src.getD j' Element.dflt
  set_col : ∀ (m : Matrix α) (j : Nat) (src : Array α),
    WritesExactly (m.setCol j src) m (j < m.cols ∧ src.size = m.rows)
      (fun i' j' => j' = j ∧ i' < m.rows) fun i' _ => src.getD i' Element.dflt
  set_col_to_val : ∀ (m : Matrix α) (j : Nat) (x : α),
    WritesExactly (m.setColToVal j x) m (j < m.cols) (fun i' j' => j' = j ∧ i' < m.rows)
      fun _ _ => x
  set_block : ∀ (m src : Matrix α) (row0 col0 : Nat),
    WritesExactly (m.setBlock row0 col0 src) m
      (row0 + src.rows ≤ m.rows ∧ col0 + src.cols ≤ m.cols) (InBlock row0 col0 src)
      fun i j => src.read Element.dflt (i - row0) (j - col0)
  add_block : ∀ (m src : Matrix α) (row0 col0 : Nat),
    WritesExactly (m.addBlock row0 col0 src) m
      (row0 + src.rows ≤ m.rows ∧ col0 + src.cols ≤ m.cols) (InBlock row0 col0 src)
      fun i j => m.read Element.dflt i j + src.read Element.dflt (i - row0) (j - col0)

theorem setters_write_addressed : SettersWriteAddressed α ρ where
  set m i j x := .of_eq_ok_iff (set_eq_ok_iff m i j x) fun h => set_rewrites m h.1 h.2 x
  set_row m i src := .of_eq_ok_iff (setRow_eq_ok_iff m i src) fun h => setRow_rewrites m h.1 h.2
  set_col m j src := .of_eq_ok_iff (setCol_eq_ok_iff m j src) fun h => setCol_rewrites m h.1 h.2
  set_col_to_val m j x :=
    .of_eq_ok_iff (setColToVal_eq_ok_iff m j x) fun h => setColToVal_rewrites m h x
  set_block m src row0 col0 :=
    .of_eq_ok_iff (setBlock_eq_ok_iff m row0 col0 src) fun h => setBlock_rewrites m h.1 h.2
  add_block m src row0 col0 :=
    .of_eq_ok_iff (addBlock_eq_ok_iff m row0 col0 src) fun h => addBlock_rewrites m h.1 h.2

end Main

end DualArrays.Proofs.MatrixWrites
