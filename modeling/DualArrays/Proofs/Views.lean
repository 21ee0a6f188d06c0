import DualArrays.Proofs.MultiarrayProducts

namespace DualArrays.Proofs.Views

open DualArrays DualArrays.Proofs.Outcomes DualArrays.Proofs.MatrixEntries
open DualArrays.Proofs.ProtocolInvariants DualArrays.Proofs.MultiarrayProducts

section Stretches

variable {α : Type} [Element α]

structure VectorReads (v : Vector α) (n : Nat) (entry : Nat → Except Error α) : Prop where
  size_eq : v.size = n
  get_eq : ∀ k, k < n → v.get k = entry k

structure MatrixReads (m' : Matrix α) (r c : Nat) (l : Layout)
    (entry : Nat → Nat → Except Error α) : Prop where
  rows_eq : m'.rows = r
  cols_eq : m'.cols = c
  layout_eq : m'.layout = l
  get_eq : ∀ i j, i < r → j < c → m'.get i j = entry i j

/-- The outcome of a view that needs one layout: on the other layout the layout error, on that
layout a result exactly when `fits` and otherwise the range error, and every result satisfies
`sel`. -/
structure ViewOutcome {ε β : Type} (r : Except ε β) (layoutError rangeError : ε)
    (layoutOk fits : Prop) (sel : β → Prop) : Prop where
  wrong_layout : ¬layoutOk → r = .error layoutError
  out_of_range : layoutOk → ¬fits → r = .error rangeError
  ok_iff : (∃ v, r = .ok v) ↔ layoutOk ∧ fits
  sel : ∀ v, r = .ok v → sel v

theorem vectorReads_extract {data : Array α} {s n : Nat} (h : s + n ≤ data.size) :
    VectorReads ⟨data.extract s (s + n)⟩ n fun k => .ok (data.getD (s + k) Element.dflt) := by
  refine ⟨by simp [Vector.size]; omega, fun k hk => ?_⟩
  have hlt : s + k < data.size := by omega
  simp only [Vector.get, Array.getElem?_extract]
  rw [if_pos (by omega), Array.getElem?_eq_getElem hlt]
  simp [hlt]

end Stretches

section Checked

variable {α β : Type}

theorem viewOutcome_requireLayout (m : Matrix α) (op : String) (l : Layout) {fits : Prop}
    [Decidable fits] {mk : fits → β} {e : Error} {sel : β → Prop}
    (hsel : m.layout = l → ∀ h, sel (mk h)) :
    ViewOutcome (do m.requireLayout op l; if h : fits then pure (mk h) else throw e)
      (.layout op l m.layout) e (m.layout = l) fits sel := by
  by_cases hl : m.layout = l
  · have hreq : m.requireLayout op l = .ok () := by simp [Matrix.requireLayout, hl]
    refine ⟨absurd hl, fun _ hf => ?_, ?_, fun v hv => ?_⟩
    · simp [hreq, hf, bind, Except.bind, throw, throwThe, MonadExceptOf.throw]
    · by_cases hf : fits <;>
        simp [hreq, hf, hl, bind, Except.bind, pure, Except.pure, throw, throwThe,
          MonadExceptOf.throw]
    · by_cases hf : fits
      · simp only [hreq, hf, dif_pos, bind, Except.bind, pure, Except.pure,
          Except.ok.injEq] at hv
        exact hv ▸ hsel hl hf
      · simp [hreq, hf, bind, Except.bind, throw, throwThe, MonadExceptOf.throw] at hv
  · have herr : (do m.requireLayout op l; if h : fits then pure (mk h) else throw e :
        Except Error β) = .error (.layout op l m.layout) := by
      simp [Matrix.requireLayout, hl, bind, Except.bind]
    refine ⟨fun _ => herr, fun hl' => absurd hl' hl, by simp [herr, hl], fun v hv => ?_⟩
    rw [herr] at hv
    cases hv

end Checked

section MatrixViews

variable {α : Type} [Element α] (m : Matrix α)

theorem row_reads {i : Nat} (hrow : m.layout = .row) (hi : i < m.rows) :
    VectorReads ⟨m.data.extract (i * m.cols) (i * m.cols + m.cols)⟩ m.cols fun k => m.get i k := by
  have hend : i * m.cols + m.cols ≤ m.data.size := by
    rw [m.size_eq, ← Nat.succ_mul]
    exact Nat.mul_le_mul_right _ hi
  refine ⟨(vectorReads_extract hend).size_eq, fun k hk => ?_⟩
  rw [(vectorReads_extract hend).get_eq k hk, get_of_lt m hi hk]
  simp [Matrix.read, Matrix.offset, Layout.offset, hrow]

theorem col_reads {j : Nat} (hcol : m.layout = .col) (hj : j < m.cols) :
    VectorReads ⟨m.data.extract (j * m.rows) (j * m.rows + m.rows)⟩ m.rows fun k => m.get k j := by
  have hend : j * m.rows + m.rows ≤ m.data.size := by
    rw [m.size_eq, ← Nat.succ_mul, Nat.mul_comm m.rows m.cols]
    exact Nat.mul_le_mul_right _ hj
  refine ⟨(vectorReads_extract hend).size_eq, fun k hk => ?_⟩
  rw [(vectorReads_extract hend).get_eq k hk, get_of_lt m hk hj]
  simp [Matrix.read, Matrix.offset, Layout.offset, hcol]

theorem row_outcome (op : String) (i : Nat) :
    ViewOutcome (Matrix.rowAt op m i) (.layout op .row m.layout) (m.indexError i 0)
      (m.layout = .row) (i < m.rows) fun v => VectorReads v m.cols fun k => m.get i k :=
  viewOutcome_requireLayout m op .row fun hrow hi => row_reads m hrow hi

theorem col_outcome (op : String) (j : Nat) :
    ViewOutcome (Matrix.colAt op m j) (.layout op .col m.layout) (m.indexError 0 j)
      (m.layout = .col) (j < m.cols) fun v => VectorReads v m.rows fun k => m.get k j :=
  viewOutcome_requireLayout m op .col fun hcol hj => col_reads m hcol hj

omit [Element α] in
theorem getD_extract {data : Array α} {a b k : Nat} (d : α) (hk : a + k < b) (hb : b ≤ data.size) :
    (data.extract a b).getD k d = data.getD (a + k) d := by
  rw [Array.getD_eq_getD_getElem?, Array.getElem?_extract, if_pos (by omega),
    Array.getD_eq_getD_getElem?]

theorem sliceRows_outcome (s n : Nat) :
    ViewOutcome (m.sliceRows s n) (.layout "Matrix::slice_rows" .row m.layout)
      (m.indexError (Word.addSat s n) 0) (m.layout = .row) (s + n ≤ m.rows)
      fun m' => MatrixReads m' n m.cols .row fun i j => m.get (s + i) j := by
  refine viewOutcome_requireLayout m _ .row fun hrow hfit => ⟨rfl, rfl, rfl, fun i j hi hj => ?_⟩
  have hend : (s + n) * m.cols ≤ m.data.size := by
    rw [m.size_eq]
    exact Nat.mul_le_mul_right _ hfit
  have hij : s * m.cols + (i * m.cols + j) < (s + n) * m.cols := by
    have := Nat.mul_le_mul_right m.cols (show i + 1 ≤ n by omega)
    rw [Nat.add_mul, Nat.succ_mul] at *
    omega
  rw [get_of_lt m (by omega) hj]
  simp only [Matrix.get, Matrix.read, Matrix.offset, Layout.offset, hrow, hi, hj, and_self,
    if_true]
  rw [getD_extract _ hij hend, Nat.add_mul, Nat.add_assoc]

theorem sliceCols_outcome (s n : Nat) :
    ViewOutcome (m.sliceCols s n) (.layout "Matrix::slice_cols" .col m.layout)
      (m.indexError 0 (Word.addSat s n)) (m.layout = .col) (s + n ≤ m.cols)
      fun m' => MatrixReads m' m.rows n .col fun i j => m.get i (s + j) := by
  refine viewOutcome_requireLayout m _ .col fun hcol hfit => ⟨rfl, rfl, rfl, fun i j hi hj => ?_⟩
  have hend : (s + n) * m.rows ≤ m.data.size := by
    rw [m.size_eq, Nat.mul_comm m.rows m.cols]
    exact Nat.mul_le_mul_right _ hfit
  have hij : s * m.rows + (j * m.rows + i) < (s + n) * m.rows := by
    have := Nat.mul_le_mul_right m.rows (show j + 1 ≤ n by omega)
    rw [Nat.add_mul, Nat.succ_mul] at *
    omega
  rw [get_of_lt m hi (by omega)]
  simp only [Matrix.get, Matrix.read, Matrix.offset, Layout.offset, hcol, hi, hj, and_self,
    if_true]
  rw [getD_extract _ hij hend, Nat.add_mul, Nat.add_assoc]

end MatrixViews

section Digits

def colIndex : List Nat → Nat → List Nat
  | [], _ => []
  | e :: es, j => j % e :: colIndex es (j / e)

theorem colIndex_spec {es : List Nat} {j : Nat} (hj : j < es.prod) :
    List.Forall₂ (· < ·) (colIndex es j) es ∧ Layout.col.linear es (colIndex es j) = j := by
  induction es generalizing j with
  | nil =>
    obtain rfl : j = 0 := by simpa using hj
    exact ⟨.nil, rfl⟩
  | cons e es ih =>
    rw [List.prod_cons] at hj
    have he : 0 < e := Nat.pos_of_ne_zero (by rintro rfl; simp at hj)
    obtain ⟨hlt, hlin⟩ := ih ((Nat.div_lt_iff_lt_mul he).mpr (by rwa [Nat.mul_comm]))
    refine ⟨.cons (Nat.mod_lt j he) hlt, ?_⟩
    rw [colIndex, linear_col_cons, hlin, Nat.div_add_mod']

example : colIndex [2, 3, 4] 17 = [1, 2, 2] := by decide

end Digits

section Multiarrays

variable {α : Type}

/-- A multiarray as its constructors leave it: from one to `maxOrder` extents, whose product,
formed in machine words as the constructors form it, is its number of entries. -/
structure Shaped (m : Multiarray α) : Prop where
  order_pos : 1 ≤ m.order
  order_le : m.order ≤ maxOrder
  prod_eq : Word.prod? m.extents = some m.data.size

theorem Shaped.size_eq {m : Multiarray α} (h : Shaped m) : m.data.size = m.extents.prod := by
  simpa using foldlM_mul?_eq_some h.prod_eq

theorem prod?_of_checkLen {c : String} {xs : List Nat} {len : Nat}
    (h : Storage.checkLen c xs len = .ok ()) : Word.prod? xs = some len := by
  unfold Storage.checkLen at h
  obtain ⟨n, hn, h⟩ := bind_eq_ok.mp h
  rw [checkedLen_ok hn]
  by_cases hne : n = len
  · rw [hne]
  · simp [hne] at h

theorem shaped_ofData {c : String} {extents : List Nat} {l : Layout} {data : Array α}
    {m : Multiarray α} (h : Multiarray.ofData c extents l data = .ok m) : Shaped m := by
  unfold Multiarray.ofData at h
  obtain ⟨⟨⟩, horder, h⟩ := bind_eq_ok.mp h
  obtain ⟨⟨⟩, hlen, h⟩ := bind_eq_ok.mp h
  cases h
  exact ⟨(checkOrder_ok horder).1, (checkOrder_ok horder).2, prod?_of_checkLen hlen⟩

theorem contains_iff (m : Multiarray α) (index : List Nat) :
    m.contains index = true ↔ List.Forall₂ (· < ·) index m.extents := by
  simp [Multiarray.contains, List.forall₂_iff_zip, List.all_eq_true]

theorem multiarray_get_of_lt [Element α] {m : Multiarray α} {index : List Nat}
    (h : List.Forall₂ (· < ·) index m.extents) :
    m.get index = .ok (m.data.getD (m.offset index) Element.dflt) := by
  simp [Multiarray.get, (contains_iff m index).mpr h]

theorem multiarray_colAt_eq (op : String) (m : Multiarray α) (j : Nat) :
    Multiarray.colAt op m j =
      if m.layout = .col then
        match Word.prod? (m.extents.drop 1) with
        | none => .error (.abort "attempt to multiply with overflow")
        | some t =>
          if j < t then
            .ok ⟨m.data.extract (j * m.extents.headD 0) (j * m.extents.headD 0 + m.extents.headD 0)⟩
          else .error (.error (m.indexError [0, j]))
      else .error (.error (.layout op .col m.layout)) := by
  unfold Multiarray.colAt Multiarray.requireCol Multiarray.trailingLen
  rw [prod_eq]
  by_cases h : m.layout = .col
  · cases hp : Word.prod? (m.extents.drop 1) with
    | none => simp [h, Except.toFailure, Except.mapError, bind, Except.bind]
    | some t =>
      by_cases hj : j < t
      · simp [h, hj, Except.toFailure, Except.mapError, bind, Except.bind, pure, Except.pure]
      · simp [h, hj, Except.toFailure, Except.mapError, bind, Except.bind, throw, throwThe,
          MonadExceptOf.throw]
  · simp [h, Except.toFailure, Except.mapError, bind, Except.bind]

theorem Shaped.extents_cons {m : Multiarray α} (h : Shaped m) :
    m.extents = m.extents.headD 0 :: m.extents.drop 1 := by
  have := h.order_pos
  cases hext : m.extents with
  | nil => simp [Multiarray.order, hext] at this
  | cons e rest => rfl

theorem multiarray_col_reads [Element α] {op : String} {m : Multiarray α} {j : Nat}
    {v : Vector α} (hm : Shaped m) (hcol : m.layout = .col) (h : Multiarray.colAt op m j = .ok v) :
    VectorReads v (m.extents.headD 0) fun i => m.get (i :: colIndex (m.extents.drop 1) j) := by
  have hext := hm.extents_cons
  set e₀ := m.extents.headD 0
  set rest := m.extents.drop 1
  rw [multiarray_colAt_eq, if_pos hcol] at h
  split at h
  · cases h
  · next t hp =>
    split_ifs at h with hj
    cases h
    have ht : t = rest.prod := (foldlM_mul?_eq_some hp).trans (Nat.one_mul _)
    have hsize : m.data.size = rest.prod * e₀ := by
      rw [hm.size_eq, hext, List.prod_cons, Nat.mul_comm]
    have hend : j * e₀ + e₀ ≤ m.data.size := by
      rw [hsize, ← Nat.succ_mul]
      exact Nat.mul_le_mul_right _ (ht ▸ hj)
    obtain ⟨hdigits, hlin⟩ := colIndex_spec (ht ▸ hj)
    refine ⟨(vectorReads_extract hend).size_eq, fun i hi => ?_⟩
    have hin : List.Forall₂ (· < ·) (i :: colIndex rest j) m.extents := hext ▸ .cons hi hdigits
    rw [(vectorReads_extract hend).get_eq i hi, multiarray_get_of_lt hin]
    simp only [Multiarray.offset, hcol]
    rw [hext, linear_col_cons, hlin]

theorem multiarray_col_ok_iff (op : String) {m : Multiarray α} (j : Nat) (hcol : m.layout = .col)
    {t : Nat} (hp : Word.prod? (m.extents.drop 1) = some t) :
    (∃ v, Multiarray.colAt op m j = .ok v) ↔ j < (m.extents.drop 1).prod := by
  have ht : t = (m.extents.drop 1).prod := (foldlM_mul?_eq_some hp).trans (Nat.one_mul _)
  rw [multiarray_colAt_eq, if_pos hcol, hp, ← ht]
  by_cases hj : j < t <;> simp [hj]

theorem multiarray_col_overflow (op : String) {m : Multiarray α} (j : Nat) (hm : Shaped m)
    (hcol : m.layout = .col) (hp : Word.prod? (m.extents.drop 1) = none) :
    Multiarray.colAt op m j = .error (.abort "attempt to multiply with overflow") ∧
      m.extents.headD 0 = 0 := by
  refine ⟨by rw [multiarray_colAt_eq, if_pos hcol, hp], Nat.eq_zero_of_not_pos fun hpos => ?_⟩
  have hprod := hm.prod_eq
  rw [hm.extents_cons] at hprod
  obtain ⟨n, hn⟩ := prod?_tail_of_cons hprod hpos
  rw [hp] at hn
  cases hn

/-- A computation that can only abort: it never ends in an error a caller could handle. -/
def AbortsOnly {β : Type} (r : Except Failure β) : Prop := ∀ e : Error, r ≠ .error (.error e)

theorem abortsOnly_word_mul (a b : Nat) : AbortsOnly (Word.mul a b) := by
  intro e
  unfold Word.mul
  split <;> simp

theorem abortsOnly_word_add (a b : Nat) : AbortsOnly (Word.add a b) := by
  intro e
  unfold Word.add
  split <;> simp

theorem abortsOnly_pure {β : Type} (x : β) : AbortsOnly (pure x : Except Failure β) := by
  intro e h
  cases h

theorem AbortsOnly.bind {β γ : Type} {r : Except Failure β} {f : β → Except Failure γ}
    (hr : AbortsOnly r) (hf : ∀ x, AbortsOnly (f x)) : AbortsOnly (r >>= f) := by
  intro e h
  cases r with
  | error e' =>
    obtain rfl : e' = .error e := by simpa [Bind.bind, Except.bind] using h
    exact hr e rfl
  | ok x => exact hf x e h

theorem AbortsOnly.eq_abort {β : Type} {r : Except Failure β} (hr : AbortsOnly r)
    {f : Failure} (h : r = .error f) : ∃ msg, f = .abort msg := by
  cases f with
  | error e => exact absurd h (hr e)
  | abort msg => exact ⟨msg, rfl⟩

theorem abortsOnly_linearChecked_col (es t : List Nat) :
    AbortsOnly (Layout.col.linearChecked es t) := by
  induction t generalizing es with
  | nil =>
    intro e h
    cases h
  | cons i t ih =>
    cases es with
    | nil =>
      intro e h
      cases h
    | cons e es =>
      rw [linearChecked_col_cons]
      exact (ih es).bind fun off => (abortsOnly_word_mul off e).bind fun p => abortsOnly_word_add p i

theorem subMatrix_wrong_layout [Element α] (m : Multiarray α) (t : List Nat)
    (h : m.layout ≠ .col) :
    m.subMatrix t = .error (.error (.layout "Multiarray::sub_matrix" .col m.layout)) := by
  simp [Multiarray.subMatrix, Multiarray.requireCol, h, Except.toFailure, Except.mapError, bind,
    Except.bind]

theorem subMatrix_wrong_order [Element α] (m : Multiarray α) (t : List Nat)
    (hcol : m.layout = .col) (h : ¬(2 ≤ m.order ∧ t.length = m.order - 2)) :
    m.subMatrix t =
      .error (.error (.dimension "Multiarray::sub_matrix" [m.order - 2] [t.length])) := by
  have hdim : m.extents.length < 2 ∨ t.length ≠ m.extents.length - 2 := by
    simp only [Multiarray.order] at h
    omega
  unfold Multiarray.subMatrix Multiarray.requireCol
  simp only [hcol, if_true]
  rw [if_pos hdim]
  rfl

theorem subMatrix_out_of_range [Element α] {m : Multiarray α} {e₀ e₁ : Nat} {rest t : List Nat}
    (hext : m.extents = e₀ :: e₁ :: rest) (hcol : m.layout = .col)
    (hlen : t.length = rest.length) (ht : ¬List.Forall₂ (· < ·) t rest) :
    m.subMatrix t = .error (.error (m.indexError ([0, 0] ++ t))) := by
  have hany : (t.zip rest).any (fun p => decide (p.1 ≥ p.2)) = true := by
    rw [List.forall₂_iff_zip] at ht
    simp only [List.any_eq_true, decide_eq_true_eq]
    by_contra hall
    exact ht ⟨hlen, fun hp => Nat.lt_of_not_ge fun hge => hall ⟨_, hp, hge⟩⟩
  unfold Multiarray.subMatrix Multiarray.requireCol
  simp only [hext, hcol, if_true, List.drop_succ_cons, List.drop_zero]
  rw [if_neg (by simp [hlen]), if_pos hany]
  rfl

theorem subMatrix_abortsOnly [Element α] {m : Multiarray α} {e₀ e₁ : Nat} {rest t : List Nat}
    (hext : m.extents = e₀ :: e₁ :: rest) (hcol : m.layout = .col)
    (ht : List.Forall₂ (· < ·) t rest) : AbortsOnly (m.subMatrix t) := by
  rw [subMatrix_eq hext hcol ht]
  refine (abortsOnly_linearChecked_col rest t).bind fun block => ?_
  refine (abortsOnly_word_mul block e₀).bind fun p => (abortsOnly_word_mul p e₁).bind
    fun start => ?_
  exact (abortsOnly_word_mul e₀ e₁).bind fun n => (abortsOnly_word_add start n).bind
    fun _ => abortsOnly_pure _

theorem subMatrix_reads [Element α] {m : Multiarray α} {e₀ e₁ : Nat} {rest t : List Nat}
    {M : Matrix α} (hext : m.extents = e₀ :: e₁ :: rest) (hcol : m.layout = .col)
    (ht : List.Forall₂ (· < ·) t rest) (h : m.subMatrix t = .ok M) :
    MatrixReads M e₀ e₁ .col fun i j => m.get (i :: j :: t) := by
  obtain rfl := subMatrix_eq_ok hext hcol ht h
  refine ⟨rfl, rfl, rfl, fun i j hi hj => ?_⟩
  have hin : List.Forall₂ (· < ·) (i :: j :: t) m.extents := hext ▸ .cons hi (.cons hj ht)
  rw [get_of_lt _ hi hj, Matrix.read_ofFn _ _ _ _ _ hi hj, multiarray_get_of_lt hin]
  simp only [Multiarray.offset, hcol, hext, linear_col_cons]

theorem subMatrix_ok_of_pos [Element α] {m : Multiarray α} {e₀ e₁ : Nat} {rest t : List Nat}
    (hm : Shaped m) (hext : m.extents = e₀ :: e₁ :: rest) (hcol : m.layout = .col)
    (ht : List.Forall₂ (· < ·) t rest) (hpos : 0 < e₁) (hrest : rest.prod ≤ Word.max) :
    ∃ M, m.subMatrix t = .ok M := by
  have hprod := hm.prod_eq
  rw [hext] at hprod
  obtain ⟨-, hN, hmax⟩ := prod?_cons_cons hprod
  exact ⟨_, subMatrix_ok hext hcol ht hpos hrest (hN ▸ hmax)⟩

theorem subMatrix_abort_of_error [Element α] {m : Multiarray α} {e₀ e₁ : Nat}
    {rest t : List Nat} (hm : Shaped m) (hext : m.extents = e₀ :: e₁ :: rest)
    (hcol : m.layout = .col) (ht : List.Forall₂ (· < ·) t rest) {f : Failure}
    (h : m.subMatrix t = .error f) : m.data.size = 0 ∧ ∃ msg, f = .abort msg := by
  refine ⟨Nat.eq_zero_of_not_pos fun hsize => ?_, (subMatrix_abortsOnly hext hcol ht).eq_abort h⟩
  have hprod := hm.prod_eq
  rw [hext] at hprod
  obtain ⟨-, hN, hmax⟩ := prod?_cons_cons hprod
  have hpos : 0 < e₀ * e₁ * rest.prod := hN ▸ hsize
  have hrest : rest.prod ≤ m.data.size :=
    hN ▸ Nat.le_mul_of_pos_left _ (Nat.pos_of_mul_pos_right hpos)
  obtain ⟨M, hM⟩ := subMatrix_ok_of_pos hm hext hcol ht
    (Nat.pos_of_mul_pos_left (Nat.pos_of_mul_pos_right hpos)) (hrest.trans hmax)
  rw [hM] at h
  cases h

theorem linear_pair (l : Layout) (r c i j : Nat) : l.linear [r, c] [i, j] = l.offset r c i j := by
  cases l <;> simp [Layout.linear, Layout.foldOrder, Layout.offset]

theorem toMatrix_reads [Element α] (op : String) {m : Multiarray α} {r c : Nat} (hm : Shaped m)
    (hext : m.extents = [r, c]) :
    ∃ M, m.toMatrix op = .ok M ∧ MatrixReads M r c m.layout fun i j => m.get [i, j] := by
  have hprod := hm.prod_eq
  rw [hext] at hprod
  have hsize : m.data.size = r * c := by simp [hm.size_eq, hext]
  have hM : m.toMatrix op = .ok ⟨r, c, m.layout, m.data, hsize⟩ := by
    unfold Multiarray.toMatrix
    rw [hext]
    show Matrix.ofData "Multiarray" r c m.layout m.data = _
    unfold Matrix.ofData
    rw [hprod]
    exact dif_pos hsize
  refine ⟨_, hM, rfl, rfl, rfl, fun i j hi hj => ?_⟩
  rw [get_of_lt _ hi hj, multiarray_get_of_lt (hext ▸ .cons hi (.cons hj .nil))]
  simp only [Matrix.read, Matrix.offset, Multiarray.offset, hext, linear_pair]

theorem toMatrix_wrong_order (op : String) (m : Multiarray α) (h : m.order ≠ 2) :
    m.toMatrix op = .error (.dimension op [2] [m.order]) := by
  unfold Multiarray.toMatrix
  split
  · next r c hext => simp [Multiarray.order, hext] at h
  · rfl

theorem toVector_reads [Element α] {m : Multiarray α} {n : Nat} (hm : Shaped m)
    (hext : m.extents = [n]) :
    ∃ v, m.toVector = .ok v ∧ VectorReads v n fun i => m.get [i] := by
  have hsize : m.data.size = n := by simp [hm.size_eq, hext]
  refine ⟨⟨m.data⟩, by simp [Multiarray.toVector, Multiarray.order, hext], hsize, fun i hi => ?_⟩
  have hlin : m.layout.linear [n] [i] = i := by
    cases m.layout <;> simp [Layout.linear, Layout.foldOrder]
  rw [multiarray_get_of_lt (hext ▸ .cons hi .nil)]
  simp [Vector.get, Multiarray.offset, hext, hlin, hsize, hi]

theorem toVector_wrong_order (m : Multiarray α) (h : m.order ≠ 1) :
    m.toVector = .error (.dimension "Multiarray::as_vector" [1] [m.order]) := by
  simp [Multiarray.toVector, h]

end Multiarrays

section Main

variable (α : Type) [Element α]

/-- What the views promise. A view of a matrix needs one layout: on the other it returns the
layout error, on its own it is had exactly when the rows or columns it names lie inside the
matrix (otherwise the index error of the first index past the end), and it reads as the matrix does at the indices it names. A column of a column-major
multiarray is had exactly when its position lies below the number of columns, if that number is
a machine word, and holds the entries whose trailing indices are the digits of the position;
if the number is no machine word, the first extent is zero and the column aborts. A block needs
two leading extents and one index inside each trailing extent; it then reads as the
multiarray at the indices it names, can only abort, and only when the multiarray holds no
entry. A multiarray of two extents is a matrix, and one of one extent a vector, reading as it
does. -/
structure ViewsSelectNamedEntries : Prop where
  row : ∀ (m : Matrix α) (op : String) (i : Nat), ViewOutcome (Matrix.rowAt op m i)
    (.layout op .row m.layout) (m.indexError i 0) (m.layout = .row) (i < m.rows)
    fun v => VectorReads v m.cols fun k => m.get i k
  col : ∀ (m : Matrix α) (op : String) (j : Nat), ViewOutcome (Matrix.colAt op m j)
    (.layout op .col m.layout) (m.indexError 0 j) (m.layout = .col) (j < m.cols)
    fun v => VectorReads v m.rows fun k => m.get k j
  slice_rows : ∀ (m : Matrix α) (s n : Nat), ViewOutcome (m.sliceRows s n)
    (.layout "Matrix::slice_rows" .row m.layout) (m.indexError (Word.addSat s n) 0)
    (m.layout = .row) (s + n ≤ m.rows)
    fun m' => MatrixReads m' n m.cols .row fun i j => m.get (s + i) j
  slice_cols : ∀ (m : Matrix α) (s n : Nat), ViewOutcome (m.sliceCols s n)
    (.layout "Matrix::slice_cols" .col m.layout) (m.indexError 0 (Word.addSat s n))
    (m.layout = .col) (s + n ≤ m.cols)
    fun m' => MatrixReads m' m.rows n .col fun i j => m.get i (s + j)
  multiarray_col_layout : ∀ (m : Multiarray α) (op : String) (j : Nat), m.layout ≠ .col →
    Multiarray.colAt op m j = .error (.error (.layout op .col m.layout))
  multiarray_col : ∀ (m : Multiarray α) (op : String) (j t : Nat), Shaped m →
    m.layout = .col → Word.prod? (m.extents.drop 1) = some t →
    ((∃ v, Multiarray.colAt op m j = .ok v) ↔ j < (m.extents.drop 1).prod) ∧
    ∀ v, Multiarray.colAt op m j = .ok v →
      VectorReads v (m.extents.headD 0) fun i => m.get (i :: colIndex (m.extents.drop 1) j)
  multiarray_col_overflow : ∀ (m : Multiarray α) (op : String) (j : Nat), Shaped m →
    m.layout = .col → Word.prod? (m.extents.drop 1) = none →
    Multiarray.colAt op m j = .error (.abort "attempt to multiply with overflow") ∧
      m.extents.headD 0 = 0
  sub_matrix_layout : ∀ (m : Multiarray α) (t : List Nat), m.layout ≠ .col →
    m.subMatrix t = .error (.error (.layout "Multiarray::sub_matrix" .col m.layout))
  sub_matrix_order : ∀ (m : Multiarray α) (t : List Nat), m.layout = .col →
    ¬(2 ≤ m.order ∧ t.length = m.order - 2) →
    m.subMatrix t =
      .error (.error (.dimension "Multiarray::sub_matrix" [m.order - 2] [t.length]))
  sub_matrix_range : ∀ (m : Multiarray α) (e₀ e₁ : Nat) (rest t : List Nat),
    m.extents = e₀ :: e₁ :: rest → m.layout = .col → t.length = rest.length →
    ¬List.Forall₂ (· < ·) t rest → m.subMatrix t = .error (.error (m.indexError ([0, 0] ++ t)))
  sub_matrix : ∀ (m : Multiarray α) (e₀ e₁ : Nat) (rest t : List Nat), Shaped m →
    m.extents = e₀ :: e₁ :: rest → m.layout = .col → List.Forall₂ (· < ·) t rest →
    (∀ M, m.subMatrix t = .ok M → MatrixReads M e₀ e₁ .col fun i j => m.get (i :: j :: t)) ∧
    (∀ f, m.subMatrix t = .error f → m.data.size = 0 ∧ ∃ msg, f = .abort msg) ∧
    (0 < e₁ → rest.prod ≤ Word.max → ∃ M, m.subMatrix t = .ok M)
  as_matrix : ∀ (m : Multiarray α) (r c : Nat), Shaped m → m.extents = [r, c] →
    ∃ M, m.toMatrix "Multiarray::as_matrix" = .ok M ∧
      MatrixReads M r c m.layout fun i j => m.get [i, j]
  as_matrix_order : ∀ m : Multiarray α, m.order ≠ 2 →
    m.toMatrix "Multiarray::as_matrix" = .error (.dimension "Multiarray::as_matrix" [2] [m.order])
  as_vector : ∀ (m : Multiarray α) (n : Nat), Shaped m → m.extents = [n] →
    ∃ v, m.toVector = .ok v ∧ VectorReads v n fun i => m.get [i]
  as_vector_order : ∀ m : Multiarray α, m.order ≠ 1 →
    m.toVector = .error (.dimension "Multiarray::as_vector" [1] [m.order])

theorem views_select_named_entries : ViewsSelectNamedEntries α where
  row := row_outcome
  col := col_outcome
  slice_rows := sliceRows_outcome
  slice_cols := sliceCols_outcome
  multiarray_col_layout m op j h := by rw [multiarray_colAt_eq, if_neg h]
  multiarray_col m op j _ hm hcol hp := by
    refine ⟨multiarray_col_ok_iff op j hcol hp, fun v hv => multiarray_col_reads hm hcol hv⟩
  multiarray_col_overflow m op j := multiarray_col_overflow op j
  sub_matrix_layout := subMatrix_wrong_layout
  sub_matrix_order := subMatrix_wrong_order
  sub_matrix_range _ _ _ _ _ := subMatrix_out_of_range
  sub_matrix m e₀ e₁ rest t hm hext hcol ht :=
    ⟨fun _ => subMatrix_reads hext hcol ht, fun _ => subMatrix_abort_of_error hm hext hcol ht,
      subMatrix_ok_of_pos hm hext hcol ht⟩
  as_matrix _ _ _ := toMatrix_reads _
  as_matrix_order := toMatrix_wrong_order _
  as_vector _ _ := toVector_reads
  as_vector_order := toVector_wrong_order

/-- Column `0` of the column-major multiarray `0 × 2⁶³ × 2`, which its constructors accept and
which holds no entry, aborts: its column count `2⁶³ · 2` leaves a machine word. -/
theorem colAt_column_count_overflows :
    Shaped wideEmpty ∧ Multiarray.colAt "Multiarray::col" wideEmpty 0 =
      .error (.abort "attempt to multiply with overflow") := by
  have hm : Shaped wideEmpty := ⟨by decide, by decide, by decide⟩
  obtain ⟨habort, -⟩ :=
    (views_select_named_entries Float).multiarray_col_overflow wideEmpty _ 0 hm rfl (by decide)
  exact ⟨hm, habort⟩

end Main

end DualArrays.Proofs.Views
