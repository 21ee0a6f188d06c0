import DualArrays.Sparse.Csr
import DualArrays.Proofs.MatrixEntries
import DualArrays.Proofs.Outcomes

namespace DualArrays.Proofs.CsrRows

open DualArrays
open DualArrays.Proofs.MatrixEntries DualArrays.Proofs.Outcomes

def offsetsOf (counts : List Nat) : List Nat :=
  counts.foldl (fun acc n => acc ++ [acc.getLastD 0 + n]) [0]

theorem offsetsOf_append (counts : List Nat) (n : Nat) :
    offsetsOf (counts ++ [n]) = offsetsOf counts ++ [(offsetsOf counts).getLastD 0 + n] := by
  simp [offsetsOf, List.foldl_append]

theorem offsetsOf_eq (counts : List Nat) :
    offsetsOf counts = (List.range (counts.length + 1)).map fun k => (counts.take k).sum := by
  induction counts using List.reverseRecOn with
  | nil => rfl
  | append_singleton counts n ih =>
      have hlast : (offsetsOf counts).getLastD 0 = counts.sum := by
        rw [ih, List.getLastD_eq_getLast?, List.getLast?_map, List.getLast?_range]
        simp
      rw [offsetsOf_append, hlast, ih, List.length_append, List.length_singleton,
        List.range_succ (n := counts.length + 1), List.map_append]
      congr 1
      · apply List.map_congr_left
        intro k hk
        rw [List.take_append_of_le_length (by simpa [Nat.lt_succ_iff] using hk)]
      · simp

theorem getD_toList (a : Array Nat) (k : Nat) : a.toList.getD k 0 = a.getD k 0 := by
  simp [Array.getD_eq_getD_getElem?, List.getD_eq_getElem?_getD]

theorem zip_drop_all_iff (l : List Nat) :
    ((l.zip (l.drop 1)).all fun p => decide (p.1 ≤ p.2)) = true ↔
      ∀ k, k + 1 < l.length → l.getD k 0 ≤ l.getD (k + 1) 0 := by
  rw [List.all_eq_true]
  constructor
  · intro h k hk
    have hmem : (l[k], l[k + 1]) ∈ l.zip (l.drop 1) := by
      rw [List.mem_iff_getElem]
      refine ⟨k, by simp; omega, ?_⟩
      simp
    have hle := h _ hmem
    simp only [decide_eq_true_eq] at hle
    rwa [List.getD_eq_getElem _ _ (by omega), List.getD_eq_getElem _ _ hk]
  · intro h p hp
    obtain ⟨k, hk, rfl⟩ := List.mem_iff_getElem.mp hp
    simp only [List.length_zip, List.length_drop] at hk
    have hle := h k (by omega)
    rw [List.getD_eq_getElem _ _ (by omega), List.getD_eq_getElem _ _ (by omega)] at hle
    simpa using hle

/-- The rules `validate` checks on the buffers of an operator with `cols` columns. -/
structure Valid (rowIndex columns : Array Nat) (nValues cols : Nat) : Prop where
  head_zero : rowIndex.toList.head? = some 0
  offsets_le : ∀ k, k + 1 < rowIndex.size → rowIndex.getD k 0 ≤ rowIndex.getD (k + 1) 0
  columns_size : columns.size = rowIndex.toList.getLastD 0
  values_size : nValues = rowIndex.toList.getLastD 0
  columns_lt : ∀ c ∈ columns, c < cols

theorem validate_eq_ok_iff {rowIndex columns : Array Nat} {nValues cols : Nat} :
    Csr.validate rowIndex columns nValues cols = .ok () ↔ Valid rowIndex columns nValues cols := by
  have hmono := zip_drop_all_iff rowIndex.toList
  simp only [Array.length_toList, getD_toList] at hmono
  unfold Csr.validate
  cases hl : rowIndex.toList with
  | nil =>
      constructor
      · intro h
        cases h
      · intro h
        have := h.head_zero
        rw [hl] at this
        cases this
  | cons first rest =>
      rw [hl] at hmono
      by_cases h0 : first = 0
      · subst h0
        simp only [ne_eq, not_true_eq_false, if_false]
        split_ifs with hm hsz hcol
        · constructor
          · intro h
            cases h
          · intro hv
            rw [hmono.mpr hv.offsets_le] at hm
            cases hm
        · constructor
          · intro h
            cases h
          · intro hv
            have hcs := hv.columns_size
            have hvs := hv.values_size
            rw [hl] at hcs hvs
            simp [hcs, hvs] at hsz
        · constructor
          · intro h
            cases h
          · intro hv
            simp only [Bool.not_eq_true', Array.all_eq_false] at hcol
            obtain ⟨i, hi, hlt⟩ := hcol
            exact Nat.lt_irrefl _ (Nat.lt_of_lt_of_le (hv.columns_lt _ (Array.getElem_mem hi))
              (by simpa using hlt))
        · simp only [true_iff]
          simp only [Bool.not_eq_true', Bool.not_eq_false, not_or, not_not] at hm hsz hcol
          refine ⟨by rw [hl]; rfl, hmono.mp (by simpa using hm), by rw [hl]; exact hsz.1,
            by rw [hl]; exact hsz.2, ?_⟩
          intro c hc
          obtain ⟨i, hi, rfl⟩ := Array.mem_iff_getElem.mp hc
          simpa using Array.all_eq_true.mp hcol i hi
      · constructor
        · intro h
          simp [h0] at h
        · intro hv
          have := hv.head_zero
          rw [hl] at this
          simp only [List.head?_cons, Option.some.injEq] at this
          exact (h0 this).elim

theorem offsetsOf_length (counts : List Nat) : (offsetsOf counts).length = counts.length + 1 := by
  simp [offsetsOf_eq]

theorem offsetsOf_getD (counts : List Nat) {k : Nat} (hk : k ≤ counts.length) :
    (offsetsOf counts).getD k 0 = (counts.take k).sum := by
  rw [offsetsOf_eq, List.getD_eq_getElem _ _ (by simp; omega)]
  simp

theorem offsetsOf_head (counts : List Nat) : (offsetsOf counts).head? = some 0 := by
  simp [offsetsOf_eq, List.head?_range]

theorem offsetsOf_getLastD (counts : List Nat) : (offsetsOf counts).getLastD 0 = counts.sum := by
  rw [offsetsOf_eq, List.getLastD_eq_getLast?, List.getLast?_map, List.getLast?_range]
  simp

theorem flatten_getElem?_offset {β : Type} (L : List (List β)) {r k : Nat} (hr : r < L.length)
    (hk : k < L[r].length) :
    L.flatten[((L.map List.length).take r).sum + k]? = some L[r][k] := by
  have hslice := List.drop_take_succ_flatten_eq_getElem L r hr
  have hstop := List.sum_take_succ (L.map List.length) r (by simpa using hr)
  simp only [List.getElem_map] at hstop
  rw [← List.getElem?_eq_getElem hk]
  conv => rhs; rw [← hslice]
  rw [List.getElem?_drop, List.getElem?_take]
  simp [hstop]
  omega

section Rows

variable {α : Type}

/-- The operator with `cols` columns whose row `r` holds the pairs of `rows[r]`, in order. -/
def ofRows (cols : Nat) (rows : List (List (Nat × α))) : Csr α :=
  ⟨(offsetsOf (rows.map List.length)).toArray, (rows.flatten.map Prod.fst).toArray,
    (rows.flatten.map Prod.snd).toArray, cols⟩

variable (cols : Nat) (rows : List (List (Nat × α)))

theorem ofRows_rows : (ofRows cols rows).rows = rows.length := by
  simp [ofRows, Csr.rows, offsetsOf_length]

theorem ofRows_offset {r : Nat} (hr : r ≤ rows.length) :
    (ofRows cols rows).rowIndex.getD r 0 = ((rows.map List.length).take r).sum := by
  rw [← getD_toList]
  exact offsetsOf_getD _ (by simpa using hr)

theorem valid_ofRows (hcols : ∀ row ∈ rows, ∀ p ∈ row, p.1 < cols) :
    Valid (ofRows cols rows).rowIndex (ofRows cols rows).columns (ofRows cols rows).values.size
      cols where
  head_zero := offsetsOf_head _
  offsets_le k hk := by
    have hk' : k < rows.length := by simpa [ofRows, offsetsOf_length] using hk
    rw [ofRows_offset cols rows (by omega), ofRows_offset cols rows (by omega),
      List.sum_take_succ _ _ (by simpa using hk')]
    omega
  columns_size := by
    rw [show (ofRows cols rows).rowIndex.toList = offsetsOf _ from rfl, offsetsOf_getLastD]
    simp [ofRows, List.length_flatten, Function.comp_def]
  values_size := by
    rw [show (ofRows cols rows).rowIndex.toList = offsetsOf _ from rfl, offsetsOf_getLastD]
    simp [ofRows, List.length_flatten, Function.comp_def]
  columns_lt c hc := by
    simp only [ofRows, List.mem_toArray, List.mem_map, List.mem_flatten] at hc
    obtain ⟨p, ⟨row, hrow, hp⟩, rfl⟩ := hc
    exact hcols row hrow p hp

theorem withCols_ofRows (hcols : ∀ row ∈ rows, ∀ p ∈ row, p.1 < cols) :
    Csr.withCols cols (ofRows cols rows).rowIndex (ofRows cols rows).columns
      (ofRows cols rows).values = .ok (ofRows cols rows) := by
  unfold Csr.withCols
  rw [validate_eq_ok_iff.mpr (valid_ofRows cols rows hcols)]
  rfl

theorem beq_ofRows_mapValues (eq : α → α → Bool) (f : α → α)
    (hf : ∀ row ∈ rows, ∀ p ∈ row, eq (f p.2) p.2 = true) :
    Csr.beq eq (ofRows cols (rows.map (List.map fun p => (p.1, f p.2)))) (ofRows cols rows) =
      true := by
  simp only [Csr.beq, ofRows, List.map_map, Function.comp_def, List.length_map, ← List.map_flatten,
    List.size_toArray, beq_self_eq_true, Bool.true_and, List.zipWith_toArray]
  rw [show (rows.flatten.map fun p => f p.2) = (rows.flatten.map Prod.snd).map f by
      simp [Function.comp_def], List.zipWith_map_left, List.zipWith_self]
  simpa [Array.all_eq_true] using fun row hrow j v hp => hf row hrow (j, v) hp

end Rows

namespace Valid

variable {α : Type} {a : Csr α} (hv : Valid a.rowIndex a.columns a.values.size a.cols)
include hv

theorem rowIndex_size : a.rowIndex.size = a.rows + 1 := by
  have hne : a.rowIndex.toList ≠ [] := by
    intro h
    have := hv.head_zero
    rw [h] at this
    cases this
  have : 0 < a.rowIndex.size := by
    rw [← Array.length_toList]
    exact List.length_pos_iff.mpr hne
  simp only [Csr.rows]
  omega

theorem offset_zero : a.rowIndex.getD 0 0 = 0 := by
  have := hv.head_zero
  rw [List.head?_eq_getElem?, ← getD_toList] at *
  simp_all [List.getD_eq_getElem?_getD]

theorem offset_rows : a.rowIndex.getD a.rows 0 = a.columns.size := by
  rw [hv.columns_size, List.getLastD_eq_getLast?, List.getLast?_eq_getElem?, ← getD_toList,
    List.getD_eq_getElem?_getD]
  simp [hv.rowIndex_size]

theorem offset_mono {k k' : Nat} (hkk : k ≤ k') (hk' : k' ≤ a.rows) :
    a.rowIndex.getD k 0 ≤ a.rowIndex.getD k' 0 := by
  induction k' with
  | zero => rw [Nat.le_zero.mp hkk]
  | succ k' ih =>
      rcases Nat.lt_or_eq_of_le hkk with hlt | rfl
      · exact Nat.le_trans (ih (by omega) (by omega))
          (hv.offsets_le k' (by rw [hv.rowIndex_size]; omega))
      · exact Nat.le_refl _

end Valid

section Pairs

variable {α : Type} [Element α]

def rowPairs (a : Csr α) (r : Nat) : List (Nat × α) :=
  (List.range (a.rowIndex.getD (r + 1) 0 - a.rowIndex.getD r 0)).map fun k =>
    (a.columns.getD (a.rowIndex.getD r 0 + k) 0,
      a.values.getD (a.rowIndex.getD r 0 + k) Element.dflt)

theorem rowPairs_ofRows (cols : Nat) (rows : List (List (Nat × α))) {r : Nat}
    (hr : r < rows.length) : rowPairs (ofRows cols rows) r = rows[r] := by
  have hstart := ofRows_offset cols rows (Nat.le_of_lt hr)
  have hstop := ofRows_offset cols rows hr
  rw [List.sum_take_succ _ _ (by simpa using hr), List.getElem_map] at hstop
  apply List.ext_getElem
  · simp [rowPairs, hstart, hstop]
  · intro k hk hk'
    have hk'' : k < rows[r].length := hk'
    have hentry := flatten_getElem?_offset rows hr hk''
    simp only [rowPairs, List.getElem_map, List.getElem_range, hstart]
    simp only [ofRows, Array.getD_eq_getD_getElem?, List.getElem?_toArray, List.getElem?_map,
      hentry, Option.map_some, Option.getD_some]

theorem flatten_rowPairs (a : Csr α) (hzero : a.rowIndex.getD 0 0 = 0) :
    ∀ n, (∀ k < n, a.rowIndex.getD k 0 ≤ a.rowIndex.getD (k + 1) 0) →
      ((List.range n).map (rowPairs a)).flatten =
        (List.range (a.rowIndex.getD n 0)).map fun k =>
          (a.columns.getD k 0, a.values.getD k Element.dflt) := by
  intro n
  induction n with
  | zero =>
      intro _
      simp [hzero]
  | succ n ih =>
      intro hmono
      have hle := hmono n (Nat.lt_succ_self n)
      rw [List.range_succ, List.map_append, List.flatten_append, ih fun k hk => hmono k (by omega),
        ← Nat.add_sub_cancel' hle, List.range_add, List.map_append, List.map_map]
      simp [rowPairs, Function.comp_def]

theorem offsetsOf_rowPairs (a : Csr α) (hzero : a.rowIndex.getD 0 0 = 0) :
    ∀ n, (∀ k < n, a.rowIndex.getD k 0 ≤ a.rowIndex.getD (k + 1) 0) →
      offsetsOf ((List.range n).map fun r => (rowPairs a r).length) =
        (List.range (n + 1)).map fun k => a.rowIndex.getD k 0 := by
  intro n
  induction n with
  | zero =>
      intro _
      rw [List.range_zero, List.map_nil, List.range_one, List.map_singleton, hzero]
      rfl
  | succ n ih =>
      intro hmono
      have hle := hmono n (Nat.lt_succ_self n)
      rw [List.range_succ, List.map_append, List.map_singleton, offsetsOf_append,
        ih fun k hk => hmono k (by omega), List.range_succ (n := n + 1), List.map_append,
        List.map_singleton]
      congr 2
      rw [List.getLastD_eq_getLast?, List.getLast?_map, List.getLast?_range, rowPairs,
        List.length_map, List.length_range]
      simp only [Nat.add_one_ne_zero, if_false, Nat.add_sub_cancel, Option.map_some,
        Option.getD_some]
      omega

theorem map_range_getD {β : Type} (xs : Array β) (d : β) :
    (List.range xs.size).map (fun k => xs.getD k d) = xs.toList := by
  apply List.ext_getElem
  · simp
  · intro k hk _
    simp only [List.length_map, List.length_range] at hk
    simp [Array.getD_eq_getD_getElem?, hk]

theorem ofRows_rowPairs {a : Csr α} (hv : Valid a.rowIndex a.columns a.values.size a.cols) :
    ofRows a.cols ((List.range a.rows).map (rowPairs a)) = a := by
  have hsize := hv.rowIndex_size
  have hmono : ∀ k < a.rows, a.rowIndex.getD k 0 ≤ a.rowIndex.getD (k + 1) 0 :=
    fun k hk => hv.offset_mono (Nat.le_succ k) hk
  have hvals : a.values.size = a.columns.size := hv.values_size.trans hv.columns_size.symm
  have hrows := offsetsOf_rowPairs a hv.offset_zero a.rows hmono
  have hflat := flatten_rowPairs a hv.offset_zero a.rows hmono
  rw [hv.offset_rows] at hflat
  obtain ⟨rowIndex, columns, values, cols⟩ := a
  simp only [Csr.rows] at hsize hrows hflat hvals
  simp only [ofRows, List.map_map, Function.comp_def, hrows, hflat, Csr.rows]
  rw [← hsize, map_range_getD, map_range_getD, ← hvals, map_range_getD]

theorem extract_eq_map_range {β : Type} (xs : Array β) (d : β) {start stop : Nat}
    (hstop : stop ≤ xs.size) :
    xs.extract start stop = ((List.range (stop - start)).map fun k => xs.getD (start + k) d).toArray := by
  apply Array.ext
  · simp only [Array.size_extract, List.size_toArray, List.length_map, List.length_range]
    omega
  · intro k hk _
    simp only [Array.size_extract] at hk
    simp [Array.getD_eq_getD_getElem?, Array.getElem?_eq_getElem (show start + k < xs.size by omega)]

theorem row_of_valid {a : Csr α} (hv : Valid a.rowIndex a.columns a.values.size a.cols)
    {r : Nat} (hr : r < a.rows) :
    a.row r = .ok (((rowPairs a r).map Prod.fst).toArray, ((rowPairs a r).map Prod.snd).toArray) := by
  have hcs : a.rowIndex.getD (r + 1) 0 ≤ a.columns.size :=
    hv.offset_rows ▸ hv.offset_mono hr (Nat.le_refl _)
  have hvs : a.rowIndex.getD (r + 1) 0 ≤ a.values.size := by
    have := hv.values_size.trans hv.columns_size.symm
    omega
  unfold Csr.row
  rw [if_pos hr]
  simp only [rowPairs, List.map_map, Function.comp_def, extract_eq_map_range a.columns 0 hcs,
    extract_eq_map_range a.values Element.dflt hvs]

theorem row_eq_ok {a : Csr α} (hv : Valid a.rowIndex a.columns a.values.size a.cols) {r : Nat}
    {cs : Array Nat} {vs : Array α} (h : a.row r = .ok (cs, vs)) :
    r < a.rows ∧ cs.toList = (rowPairs a r).map Prod.fst ∧ vs.toList = (rowPairs a r).map Prod.snd := by
  by_cases hr : r < a.rows
  · rw [row_of_valid hv hr] at h
    cases h
    exact ⟨hr, rfl, rfl⟩
  · unfold Csr.row at h
    rw [if_neg hr] at h
    cases h

theorem mem_rowPairs {a : Csr α} (hv : Valid a.rowIndex a.columns a.values.size a.cols)
    {r : Nat} (hr : r < a.rows) {p : Nat × α} (hp : p ∈ rowPairs a r) :
    p.1 ∈ a.columns ∧ p.2 ∈ a.values := by
  have hcs : a.rowIndex.getD (r + 1) 0 ≤ a.columns.size :=
    hv.offset_rows ▸ hv.offset_mono hr (Nat.le_refl _)
  have hvs : a.columns.size = a.values.size := hv.columns_size.trans hv.values_size.symm
  obtain ⟨k, hk, rfl⟩ := List.mem_map.mp hp
  rw [List.mem_range] at hk
  have hin : a.rowIndex.getD r 0 + k < a.columns.size := by omega
  generalize a.rowIndex.getD r 0 + k = n at hin ⊢
  simp only [Array.getD_eq_getD_getElem?, Array.getElem?_eq_getElem hin,
    Array.getElem?_eq_getElem (hvs ▸ hin), Option.getD_some]
  exact ⟨Array.getElem_mem hin, Array.getElem_mem _⟩

end Pairs

section Dense

variable {α ρ : Type} [Scalar α ρ]

def addEntry (m : Matrix α) (e : Nat × Nat × α) : Matrix α :=
  m.setAt (m.offset e.1 e.2.1) (m.read Element.dflt e.1 e.2.1 + e.2.2)

theorem toDense_eq (a : Csr α) (l : Layout) :
    a.toDense l = ((Matrix.zeros a.rows a.cols l : Except Error (Matrix α)) >>= fun z =>
      pure (a.entries.foldl addEntry z)) :=
  rfl

@[simp] theorem addEntry_rows (m : Matrix α) (e : Nat × Nat × α) : (addEntry m e).rows = m.rows :=
  rfl

@[simp] theorem addEntry_cols (m : Matrix α) (e : Nat × Nat × α) : (addEntry m e).cols = m.cols :=
  rfl

@[simp] theorem addEntry_layout (m : Matrix α) (e : Nat × Nat × α) :
    (addEntry m e).layout = m.layout :=
  rfl

theorem read_addEntry (m : Matrix α) (d : α) {r c i j : Nat} (v : α) (hr : r < m.rows)
    (hc : c < m.cols) (hi : i < m.rows) (hj : j < m.cols) :
    (addEntry m (r, c, v)).read d i j =
      if i = r ∧ j = c then m.read d r c + v else m.read d i j := by
  rw [addEntry, read_setAt_offset m d _ (p := (r, c)) (q := (i, j)) hr hc hi hj]
  by_cases h : i = r ∧ j = c
  · obtain ⟨rfl, rfl⟩ := h
    rw [if_pos rfl, if_pos ⟨rfl, rfl⟩, read_default m Element.dflt d hr hc]
  · have hne : (r, c) ≠ (i, j) := fun heq => h ⟨(Prod.mk.inj heq).1.symm, (Prod.mk.inj heq).2.symm⟩
    rw [if_neg hne, if_neg h]

theorem read_foldl_addEntry (es : List (Nat × Nat × α)) (m : Matrix α) (d : α)
    (hnd : (es.map fun e => (e.1, e.2.1)).Nodup)
    (hin : ∀ e ∈ es, e.1 < m.rows ∧ e.2.1 < m.cols) {i j : Nat} (hi : i < m.rows)
    (hj : j < m.cols) :
    (∀ v, (i, j, v) ∈ es → (es.foldl addEntry m).read d i j = m.read d i j + v) ∧
      ((∀ v, (i, j, v) ∉ es) → (es.foldl addEntry m).read d i j = m.read d i j) := by
  have hfold : es.foldl addEntry m =
      es.foldl (writeStep (fun e => (e.1, e.2.1)) fun e old => old + e.2.2) m := rfl
  rw [hfold]
  constructor
  · intro v hv
    rw [read_foldl_writeStep_of_mem _ _ hnd hin hv d]
    exact congrArg (· + v) (read_default m Element.dflt d hi hj)
  · intro hnone
    refine read_foldl_writeStep_of_forall_ne _ _ hin (q := (i, j)) hi hj ?_ d
    rintro ⟨r, c, w⟩ he heq
    obtain ⟨rfl, rfl⟩ := Prod.mk.inj heq
    exact hnone w he

theorem entries_eq (a : Csr α) :
    a.entries = (List.range a.rows).flatMap fun r => (rowPairs a r).map fun p => (r, p.1, p.2) := by
  simp [Csr.entries, rowPairs, Function.comp_def]

theorem mem_entries {a : Csr α} {i j : Nat} {v : α} :
    (i, j, v) ∈ a.entries ↔ i < a.rows ∧ (j, v) ∈ rowPairs a i := by
  simp [entries_eq]

theorem entries_in_range {a : Csr α} (hv : Valid a.rowIndex a.columns a.values.size a.cols) {e}
    (he : e ∈ a.entries) : e.1 < a.rows ∧ e.2.1 < a.cols := by
  obtain ⟨r, c, v⟩ := e
  obtain ⟨hr, hp⟩ := mem_entries.mp he
  exact ⟨hr, hv.columns_lt c (mem_rowPairs hv hr hp).1⟩

theorem entries_positions_nodup {a : Csr α}
    (hnd : ∀ r < a.rows, ((rowPairs a r).map Prod.fst).Nodup) :
    (a.entries.map fun e => (e.1, e.2.1)).Nodup := by
  rw [entries_eq, List.map_flatMap, List.nodup_flatMap]
  constructor
  · intro r hr
    have hrow : ((rowPairs a r).map fun p => (r, p.1, p.2)).map (fun e => (e.1, e.2.1)) =
        ((rowPairs a r).map Prod.fst).map (Prod.mk r) := by
      simp [Function.comp_def]
    rw [hrow]
    exact (hnd r (List.mem_range.mp hr)).map fun x y h => (Prod.mk.inj h).2
  · refine List.pairwise_lt_range.imp fun {r r'} hlt => ?_
    rw [Function.onFun, List.disjoint_left]
    intro x hx hx'
    simp only [List.map_map, List.mem_map, Function.comp_apply] at hx hx'
    obtain ⟨p, -, rfl⟩ := hx
    obtain ⟨q, -, hq⟩ := hx'
    have := congrArg Prod.fst hq
    simp at this
    omega

theorem toDense_ok {a : Csr α} {l : Layout}
    (hz : ∃ z, (Matrix.zeros a.rows a.cols l : Except Error (Matrix α)) = .ok z) :
    ∃ d, a.toDense l = .ok d := by
  obtain ⟨z, hz⟩ := hz
  exact ⟨_, by rw [toDense_eq, hz]; rfl⟩

theorem toDense_shape {a : Csr α} {l : Layout} {d : Matrix α} (h : a.toDense l = .ok d) :
    d.rows = a.rows ∧ d.cols = a.cols ∧ d.layout = l := by
  rw [toDense_eq] at h
  obtain ⟨z, hz, hd⟩ := bind_eq_ok.mp h
  cases hd
  obtain ⟨hr, hc, hl, -⟩ := matrix_zeros_ok hz
  have hkeep : ∀ (es : List (Nat × Nat × α)) (m : Matrix α),
      (es.foldl addEntry m).rows = m.rows ∧ (es.foldl addEntry m).cols = m.cols ∧
        (es.foldl addEntry m).layout = m.layout := by
    intro es
    induction es with
    | nil => exact fun _ => ⟨rfl, rfl, rfl⟩
    | cons e es ih => exact fun m => by simpa using ih (addEntry m e)
  obtain ⟨h1, h2, h3⟩ := hkeep a.entries z
  exact ⟨h1.trans hr, h2.trans hc, h3.trans hl⟩

theorem read_toDense {a : Csr α} {l : Layout} {d : Matrix α} (h : a.toDense l = .ok d)
    (hnd : ∀ r < a.rows, ((rowPairs a r).map Prod.fst).Nodup)
    (hcols : ∀ r < a.rows, ∀ p ∈ rowPairs a r, p.1 < a.cols) {i j : Nat} (hi : i < a.rows)
    (hj : j < a.cols) :
    (∀ v, (j, v) ∈ rowPairs a i → d.read Element.dflt i j = Element.dflt + v) ∧
      ((∀ v, (j, v) ∉ rowPairs a i) → d.read Element.dflt i j = Element.dflt) := by
  rw [toDense_eq] at h
  obtain ⟨z, hz, hd⟩ := bind_eq_ok.mp h
  cases hd
  obtain ⟨hr, hc, -, hzero⟩ := matrix_zeros_ok hz
  have hin : ∀ e ∈ a.entries, e.1 < z.rows ∧ e.2.1 < z.cols := by
    rintro ⟨r, c, v⟩ he
    obtain ⟨hr', hp⟩ := mem_entries.mp he
    exact ⟨hr ▸ hr', hc ▸ hcols r hr' (c, v) hp⟩
  have hfold := read_foldl_addEntry a.entries z Element.dflt (entries_positions_nodup hnd) hin
    (hr ▸ hi) (hc ▸ hj)
  rw [hzero Element.dflt i j hi hj] at hfold
  refine ⟨fun v hv => hfold.1 v (mem_entries.mpr ⟨hi, hv⟩), fun hnone => hfold.2 ?_⟩
  intro v hv
  exact hnone v (mem_entries.mp hv).2

end Dense

end DualArrays.Proofs.CsrRows
