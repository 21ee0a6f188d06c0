import DualArrays.Proofs.DenseKernels
import DualArrays.Proofs.ProtocolInvariants

namespace DualArrays.Proofs.MultiarrayProducts

open DualArrays DualArrays.Blas
open DualArrays.Proofs.Outcomes DualArrays.Proofs.MatrixEntries DualArrays.Proofs.CsrRows
open DualArrays.Proofs.DenseKernels DualArrays.Proofs.ProtocolInvariants
open DualArrays.Proofs.CsrReaders

section Words

theorem word_mul_eq_ok_iff {a b c : Nat} : Word.mul a b = .ok c ↔ a * b ≤ Word.max ∧ c = a * b := by
  unfold Word.mul Word.mul?
  split_ifs with h
  · simp [h, eq_comm]
  · simp [h]

theorem word_add_eq_ok_iff {a b c : Nat} : Word.add a b = .ok c ↔ a + b ≤ Word.max ∧ c = a + b := by
  unfold Word.add
  cases h : Word.add? a b with
  | none =>
      simp only [reduceCtorEq, false_iff, not_and]
      intro hle
      simp [Word.add?, hle] at h
  | some s =>
      rw [Word.add?_eq_some_iff] at h
      obtain ⟨hle, rfl⟩ := h
      simp [hle, eq_comm]

theorem mul?_eq_some_iff {a b c : Nat} : Word.mul? a b = some c ↔ a * b ≤ Word.max ∧ c = a * b := by
  unfold Word.mul?
  split_ifs with h
  · simp [h, eq_comm]
  · simp [h]

theorem foldlM_mul?_cons {x a n : Nat} {xs : List Nat} :
    (x :: xs).foldlM Word.mul? a = some n ↔
      a * x ≤ Word.max ∧ xs.foldlM Word.mul? (a * x) = some n := by
  rw [List.foldlM_cons]
  by_cases h : a * x ≤ Word.max
  · rw [mul?_eq_some_iff.mpr ⟨h, rfl⟩]
    simp [h]
  · have hm : Word.mul? a x = none := by simp [Word.mul?, h]
    simp [hm, h]

theorem foldlM_mul?_le_max {xs : List Nat} {a n : Nat} (h : xs.foldlM Word.mul? a = some n)
    (ha : a ≤ Word.max) : n ≤ Word.max := by
  induction xs generalizing a with
  | nil =>
      cases h
      exact ha
  | cons x xs ih =>
      obtain ⟨hle, h⟩ := foldlM_mul?_cons.mp h
      exact ih h hle

theorem foldlM_mul?_mono {xs : List Nat} {a b n : Nat} (h : xs.foldlM Word.mul? a = some n)
    (hba : b ≤ a) : ∃ m, xs.foldlM Word.mul? b = some m := by
  induction xs generalizing a b with
  | nil => exact ⟨b, rfl⟩
  | cons x xs ih =>
      obtain ⟨hle, h⟩ := foldlM_mul?_cons.mp h
      have hbx : b * x ≤ a * x := Nat.mul_le_mul_right x hba
      obtain ⟨m, hm⟩ := ih h hbx
      exact ⟨m, foldlM_mul?_cons.mpr ⟨by omega, hm⟩⟩

theorem foldlM_mul?_zero (xs : List Nat) : xs.foldlM Word.mul? 0 = some 0 := by
  induction xs with
  | nil => rfl
  | cons x xs ih => exact foldlM_mul?_cons.mpr ⟨by simp [Word.max], by simpa using ih⟩

theorem foldlM_mul_eq (xs : List Nat) (a : Nat) :
    xs.foldlM Word.mul a = match xs.foldlM Word.mul? a with
      | some n => .ok n
      | none => .error (.abort "attempt to multiply with overflow") := by
  induction xs generalizing a with
  | nil => rfl
  | cons x xs ih =>
      rw [List.foldlM_cons, List.foldlM_cons]
      unfold Word.mul
      cases Word.mul? a x with
      | none => rfl
      | some ax => exact ih ax

theorem prod_eq (xs : List Nat) :
    Word.prod xs = match Word.prod? xs with
      | some n => .ok n
      | none => .error (.abort "attempt to multiply with overflow") :=
  foldlM_mul_eq xs 1

theorem prod?_tail_of_cons {r N : Nat} {tail : List Nat} (h : Word.prod? (r :: tail) = some N)
    (hr : 0 < r) : ∃ n, Word.prod? tail = some n := by
  obtain ⟨-, h⟩ := foldlM_mul?_cons.mp h
  exact foldlM_mul?_mono h (by omega)

theorem prod?_cons_cons {r c : Nat} {rest : List Nat} {N : Nat}
    (h : Word.prod? (r :: c :: rest) = some N) :
    Word.prod? [r, c] = some (r * c) ∧ N = r * c * rest.prod ∧ N ≤ Word.max := by
  obtain ⟨hr, h⟩ := foldlM_mul?_cons.mp h
  obtain ⟨hrc, h⟩ := foldlM_mul?_cons.mp h
  rw [Nat.one_mul] at hr hrc h
  refine ⟨?_, foldlM_mul?_eq_some h, foldlM_mul?_le_max h hrc⟩
  exact foldlM_mul?_cons.mpr ⟨by omega, foldlM_mul?_cons.mpr ⟨by simpa using hrc, by simp⟩⟩

end Words

section Offsets

theorem linear_col_cons (e i : Nat) (es t : List Nat) :
    Layout.col.linear (e :: es) (i :: t) = Layout.col.linear es t * e + i := by
  simp only [Layout.linear, Layout.foldOrder, List.foldl_reverse, List.zip_cons_cons,
    List.foldr_cons]

theorem linearChecked_col_cons (e i : Nat) (es t : List Nat) :
    Layout.col.linearChecked (e :: es) (i :: t) =
      (Layout.col.linearChecked es t >>= fun off => do Word.add (← Word.mul off e) i) := by
  simp only [Layout.linearChecked, Layout.foldOrder, List.foldlM_reverse, List.zip_cons_cons,
    List.foldrM_cons]

theorem linearChecked_col_eq_ok {es t : List Nat} {v : Nat}
    (h : Layout.col.linearChecked es t = .ok v) : v = Layout.col.linear es t := by
  induction t generalizing es v with
  | nil =>
      cases h
      simp [Layout.linear, Layout.foldOrder]
  | cons i t ih =>
      cases es with
      | nil =>
          cases h
          simp [Layout.linear, Layout.foldOrder]
      | cons e es =>
          rw [linearChecked_col_cons] at h
          obtain ⟨off, hoff, h⟩ := bind_eq_ok.mp h
          obtain ⟨p, hp, h⟩ := bind_eq_ok.mp h
          rw [linear_col_cons, ← ih hoff, (word_add_eq_ok_iff.mp h).2,
            (word_mul_eq_ok_iff.mp hp).2]

theorem linear_col_lt {t es : List Nat} (ht : List.Forall₂ (· < ·) t es) :
    Layout.col.linear es t < es.prod := by
  induction ht with
  | nil => simp [Layout.linear, Layout.foldOrder]
  | @cons i e t es hie _ ih =>
      have h := Nat.mul_le_mul_right e ih
      rw [linear_col_cons, List.prod_cons, Nat.succ_mul, Nat.mul_comm es.prod] at *
      omega

theorem linearChecked_col_of_lt {t es : List Nat} (ht : List.Forall₂ (· < ·) t es)
    (hfit : es.prod ≤ Word.max) :
    Layout.col.linearChecked es t = .ok (Layout.col.linear es t) := by
  induction ht with
  | nil => rfl
  | @cons i e t es hie hrest ih =>
      rw [List.prod_cons] at hfit
      have hok := ih (le_trans (Nat.le_mul_of_pos_left _ (by omega)) hfit)
      have hnext : Layout.col.linear es t * e + e ≤ e * es.prod := by
        have h := Nat.mul_le_mul_right e (linear_col_lt hrest)
        rwa [Nat.succ_mul, Nat.mul_comm es.prod] at h
      rw [linearChecked_col_cons, hok, linear_col_cons]
      show (Word.mul _ e >>= fun p => Word.add p i) = _
      rw [word_mul_eq_ok_iff.mpr ⟨by omega, rfl⟩]
      exact word_add_eq_ok_iff.mpr ⟨by omega, rfl⟩

end Offsets

section Blocks

variable {α : Type} [Element α]

@[simp] theorem ofFn_rows {β : Type} (r c : Nat) (l : Layout) (f : Nat → Nat → β) :
    (Matrix.ofFn r c l f).rows = r :=
  rfl

@[simp] theorem ofFn_cols {β : Type} (r c : Nat) (l : Layout) (f : Nat → Nat → β) :
    (Matrix.ofFn r c l f).cols = c :=
  rfl

theorem ofFn_congr {β : Type} {r c : Nat} (l : Layout) {f g : Nat → Nat → β}
    (h : ∀ i j, i < r → j < c → f i j = g i j) : Matrix.ofFn r c l f = Matrix.ofFn r c l g := by
  have hfun : (fun k : Fin (r * c) => f (l.position r c k.val).1 (l.position r c k.val).2) =
      fun k => g (l.position r c k.val).1 (l.position r c k.val).2 := by
    funext k
    exact h _ _ (position_lt l k.isLt).1 (position_lt l k.isLt).2
  simp only [Matrix.ofFn, hfun]

theorem block_entry (block e₀ e₁ i j : Nat) :
    block * e₀ * e₁ + j * e₀ + i = (block * e₁ + j) * e₀ + i := by
  ring

theorem subMatrix_eq {m : Multiarray α} {e₀ e₁ : Nat} {rest t : List Nat}
    (hext : m.extents = e₀ :: e₁ :: rest) (hcol : m.layout = .col)
    (ht : List.Forall₂ (· < ·) t rest) :
    m.subMatrix t = (do
      let block ← Layout.col.linearChecked rest t
      let start ← Word.mul (← Word.mul block e₀) e₁
      let _ ← Word.add start (← Word.mul e₀ e₁)
      return Matrix.ofFn e₀ e₁ .col fun i j => m.data.getD (start + j * e₀ + i) Element.dflt) := by
  have hlen := ht.length_eq
  have hbelow : (t.zip rest).any (fun p => decide (p.1 ≥ p.2)) = false := by
    rw [List.any_eq_false]
    intro p hp
    have := (List.forall₂_iff_zip.mp ht).2 hp
    simp only [decide_eq_true_eq]
    omega
  unfold Multiarray.subMatrix Multiarray.requireCol
  simp only [hext, hcol, if_true, List.drop_succ_cons, List.drop_zero, List.headD_cons]
  rw [if_neg (by simp [hlen]), if_neg (by rw [hbelow]; decide)]
  rfl

theorem subMatrix_of_offset {m : Multiarray α} {e₀ e₁ b : Nat} {rest t : List Nat}
    (hext : m.extents = e₀ :: e₁ :: rest) (hcol : m.layout = .col)
    (ht : List.Forall₂ (· < ·) t rest) (hblock : Layout.col.linearChecked rest t = .ok b)
    (hbe : b * e₀ ≤ Word.max) (hfit : e₀ * e₁ * rest.prod ≤ Word.max) :
    m.subMatrix t = .ok (Matrix.ofFn e₀ e₁ .col fun i j =>
      m.data.getD ((b * e₁ + j) * e₀ + i) Element.dflt) := by
  have hlt : b < rest.prod := linearChecked_col_eq_ok hblock ▸ linear_col_lt ht
  have hend : b * e₀ * e₁ + e₀ * e₁ ≤ Word.max := by
    have h := Nat.mul_le_mul_right (e₀ * e₁) hlt
    rw [Nat.succ_mul, Nat.mul_comm rest.prod] at h
    rw [Nat.mul_assoc b]
    omega
  have h₁ : Word.mul b e₀ = .ok (b * e₀) := word_mul_eq_ok_iff.mpr ⟨hbe, rfl⟩
  have h₂ : Word.mul (b * e₀) e₁ = .ok (b * e₀ * e₁) := word_mul_eq_ok_iff.mpr ⟨by omega, rfl⟩
  have h₃ : Word.mul e₀ e₁ = .ok (e₀ * e₁) := word_mul_eq_ok_iff.mpr ⟨by omega, rfl⟩
  have h₄ : Word.add (b * e₀ * e₁) (e₀ * e₁) = .ok (b * e₀ * e₁ + e₀ * e₁) :=
    word_add_eq_ok_iff.mpr ⟨hend, rfl⟩
  rw [subMatrix_eq hext hcol ht]
  simp only [hblock, h₁, h₂, h₃, h₄, bind, Except.bind, pure, Except.pure, block_entry]

theorem subMatrix_ok {m : Multiarray α} {e₀ e₁ : Nat} {rest t : List Nat}
    (hext : m.extents = e₀ :: e₁ :: rest) (hcol : m.layout = .col)
    (ht : List.Forall₂ (· < ·) t rest) (hpos : 0 < e₁) (hrest : rest.prod ≤ Word.max)
    (hfit : e₀ * e₁ * rest.prod ≤ Word.max) :
    m.subMatrix t = .ok (Matrix.ofFn e₀ e₁ .col fun i j =>
      m.data.getD ((Layout.col.linear rest t * e₁ + j) * e₀ + i) Element.dflt) := by
  -- with a second extent, the offset times the rows is at most the offset of the next block
  have hbe : Layout.col.linear rest t * e₀ ≤ Word.max :=
    calc Layout.col.linear rest t * e₀
        ≤ Layout.col.linear rest t * e₀ * e₁ := Nat.le_mul_of_pos_right _ hpos
      _ ≤ rest.prod * e₀ * e₁ := by gcongr; exact (linear_col_lt ht).le
      _ = e₀ * e₁ * rest.prod := by ring
      _ ≤ Word.max := hfit
  exact subMatrix_of_offset hext hcol ht (linearChecked_col_of_lt ht hrest) hbe hfit

theorem subMatrix_eq_ok {m : Multiarray α} {e₀ e₁ : Nat} {rest t : List Nat} {M : Matrix α}
    (hext : m.extents = e₀ :: e₁ :: rest) (hcol : m.layout = .col)
    (ht : List.Forall₂ (· < ·) t rest) (h : m.subMatrix t = .ok M) :
    M = Matrix.ofFn e₀ e₁ .col fun i j =>
      m.data.getD ((Layout.col.linear rest t * e₁ + j) * e₀ + i) Element.dflt := by
  rw [subMatrix_eq hext hcol ht] at h
  obtain ⟨block, hblock, h⟩ := bind_eq_ok.mp h
  obtain ⟨p, hp, h⟩ := bind_eq_ok.mp h
  obtain ⟨start, hstart, h⟩ := bind_eq_ok.mp h
  obtain ⟨s, -, h⟩ := bind_eq_ok.mp h
  obtain ⟨-, -, h⟩ := bind_eq_ok.mp h
  cases h
  rw [(word_mul_eq_ok_iff.mp hstart).2, (word_mul_eq_ok_iff.mp hp).2,
    linearChecked_col_eq_ok hblock]
  simp only [block_entry]

end Blocks

section Allocation

variable {α : Type} [Element α]

theorem reserve_ok_of_le {c c' : String} {e e' : List Nat} {len len' size : Nat}
    (h : Storage.reserve c e len size = .ok ()) (hle : len' ≤ len) :
    Storage.reserve c' e' len' size = .ok () := by
  have hmul : len' * size ≤ len * size := Nat.mul_le_mul_right size hle
  unfold Storage.reserve at h ⊢
  split_ifs at h ⊢ <;> first | rfl | omega

theorem multiarray_zeros_ok {ext : List Nat} {l : Layout} {z : Multiarray α}
    (h : (Multiarray.zeros ext l : Except Error (Multiarray α)) = .ok z) :
    ∃ N, Word.prod? ext = some N ∧ Storage.reserve "Multiarray" ext N (Element.size α) = .ok () := by
  unfold Multiarray.zeros Multiarray.filled at h
  obtain ⟨_, -, h⟩ := bind_eq_ok.mp h
  obtain ⟨N, hN, h⟩ := bind_eq_ok.mp h
  obtain ⟨data, hdata, -⟩ := bind_eq_ok.mp h
  obtain ⟨_, hres, -⟩ := bind_eq_ok.mp hdata
  exact ⟨N, checkedLen_ok hN, hres⟩

theorem multiarray_zeros_error {ext : List Nat} {l : Layout} {e : Error}
    (horder : checkOrder ext = .ok ())
    (h : (Multiarray.zeros ext l : Except Error (Multiarray α)) = .error e) :
    ∃ c es r, e = .allocation c es r := by
  unfold Multiarray.zeros Multiarray.filled at h
  rw [horder] at h
  rcases bind_eq_error.mp h with h | ⟨_, -, h⟩
  · cases h
  rcases bind_eq_error.mp h with h | ⟨N, -, h⟩
  · unfold Storage.checkedLen at h
    split at h <;> cases h
    exact ⟨_, _, _, rfl⟩
  rcases bind_eq_error.mp h with h | ⟨_, -, h⟩
  · rcases bind_eq_error.mp h with h | ⟨_, -, h⟩
    · unfold Storage.reserve at h
      split_ifs at h <;> cases h <;> exact ⟨_, _, _, rfl⟩
    · cases h
  · cases h

theorem multiarray_zeros_of_zero {tail : List Nat} (l : Layout)
    (horder : checkOrder (0 :: tail) = .ok ()) :
    ∃ z, (Multiarray.zeros (0 :: tail) l : Except Error (Multiarray α)) = .ok z := by
  have hN : Word.prod? (0 :: tail) = some 0 := by
    rw [Word.prod?, List.foldlM_cons]
    exact foldlM_mul?_zero tail
  exact ⟨⟨0 :: tail, l, #[]⟩, by simp [Multiarray.zeros, Multiarray.filled, horder,
    Storage.checkedLen, hN, Storage.filled, Storage.reserve, bind, Except.bind, pure, Except.pure]⟩

theorem vector_zeros_of_reserve {n N : Nat} {c : String} {e : List Nat}
    (hp : Word.prod? [n] = some n) (hr : Storage.reserve c e N (Element.size α) = .ok ())
    (hle : n ≤ N) : ∃ y, (Vector.zeros n : Except Error (Vector α)) = .ok y := by
  have hr' : Storage.reserve "Vector" [n] n (Element.size α) = .ok () :=
    reserve_ok_of_le hr hle
  exact ⟨⟨Array.replicate n Element.dflt⟩, by simp [Vector.zeros, Vector.filled,
    Storage.checkedLen, hp, Storage.filled, hr', bind, Except.bind, pure, Except.pure]⟩

theorem matrix_zeros_of_reserve {r c N : Nat} {c' : String} {e : List Nat} (l : Layout)
    (hp : Word.prod? [r, c] = some (r * c)) (hr : Storage.reserve c' e N (Element.size α) = .ok ())
    (hle : r * c ≤ N) : ∃ z, (Matrix.zeros r c l : Except Error (Matrix α)) = .ok z := by
  have hr' : Storage.reserve "Matrix" [r, c] (r * c) (Element.size α) = .ok () :=
    reserve_ok_of_le hr hle
  exact ⟨⟨r, c, l, Array.replicate (r * c) Element.dflt, by simp⟩, by simp [Matrix.zeros,
    Matrix.filled, Storage.checkedLen, hp, hr', bind, Except.bind, pure, Except.pure]⟩

theorem vector_zeros_eq_ok {n : Nat} {y : Vector α}
    (h : (Vector.zeros n : Except Error (Vector α)) = .ok y) :
    y.data = Array.replicate n Element.dflt ∧ Word.prod? [n] = some n ∧
      Storage.reserve "Vector" [n] n (Element.size α) = .ok () := by
  unfold Vector.zeros Vector.filled at h
  obtain ⟨len, hlen, h⟩ := bind_eq_ok.mp h
  obtain ⟨data, hdata, h⟩ := bind_eq_ok.mp h
  cases h
  have hp := checkedLen_ok hlen
  obtain rfl : len = n := by simpa using foldlM_mul?_eq_some hp
  obtain ⟨_, hres, hd⟩ := bind_eq_ok.mp hdata
  cases hd
  exact ⟨rfl, hp, hres⟩

theorem matrix_zeros_reserve {r c : Nat} {l : Layout} {z : Matrix α}
    (h : (Matrix.zeros r c l : Except Error (Matrix α)) = .ok z) :
    Word.prod? [r, c] = some (r * c) ∧
      Storage.reserve "Matrix" [r, c] (r * c) (Element.size α) = .ok () := by
  unfold Matrix.zeros Matrix.filled at h
  obtain ⟨len, hlen, h⟩ := bind_eq_ok.mp h
  obtain ⟨_, hres, -⟩ := bind_eq_ok.mp h
  have hp := checkedLen_ok hlen
  obtain rfl : len = r * c := by simpa using foldlM_mul?_eq_some hp
  exact ⟨hp, hres⟩

theorem prod?_pair_one (n : Nat) : Word.prod? [n, 1] = Word.prod? [n] := by
  by_cases h : n ≤ Word.max <;> simp [Word.prod?, Word.mul?, h]

theorem vector_zeros_iff_matrix_zeros (n : Nat) (l : Layout) :
    (∃ y, (Vector.zeros n : Except Error (Vector α)) = .ok y) ↔
      ∃ z, (Matrix.zeros n 1 l : Except Error (Matrix α)) = .ok z := by
  constructor
  · rintro ⟨y, hy⟩
    obtain ⟨-, hp, hres⟩ := vector_zeros_eq_ok hy
    exact matrix_zeros_of_reserve l (by rw [prod?_pair_one, hp, Nat.mul_one]) hres (by simp)
  · rintro ⟨z, hz⟩
    obtain ⟨hp, hres⟩ := matrix_zeros_reserve hz
    rw [prod?_pair_one, Nat.mul_one] at hp
    exact vector_zeros_of_reserve hp hres (by simp)

end Allocation

section Grid

variable {β : Type}

theorem size_flatten_grid (n m : Nat) (f : Nat → Nat → β) :
    (((List.range n).map fun col => (List.range m).map (f col)).flatten.toArray).size =
      n * m := by
  simp [List.length_flatten, Function.comp_def]

theorem getD_flatten_grid {n m col i : Nat} (f : Nat → Nat → β) (d : β) (hcol : col < n)
    (hi : i < m) :
    (((List.range n).map fun col => (List.range m).map (f col)).flatten.toArray).getD
      (col * m + i) d = f col i := by
  have h := flatten_getElem?_offset ((List.range n).map fun col => (List.range m).map (f col))
    (r := col) (k := i) (by simpa using hcol) (by simpa using hi)
  have hoff : ((((List.range n).map fun col => (List.range m).map (f col)).map
      List.length).take col).sum = col * m := by
    simp [Function.comp_def, List.take_replicate, Nat.min_eq_left hcol.le]
  rw [hoff] at h
  rw [Array.getD_eq_getD_getElem?, List.getElem?_toArray, h]
  simp

end Grid

section Product

variable {α ρ : Type} [Scalar α ρ] (alpha : α) (a : Matrix α) {b : Multiarray α}

theorem mmMultiarray_of_row (h : b.layout ≠ .col) :
    mmMultiarray alpha a b = .error (.error (.layout "mm_multiarray" .col b.layout)) := by
  unfold mmMultiarray Multiarray.requireCol
  rw [if_neg h]
  rfl

theorem mmMultiarray_of_dimension (hcol : b.layout = .col) (h : a.cols ≠ b.extents.headD 0) :
    mmMultiarray alpha a b =
      .error (.error (.dimension "mm_multiarray" [a.cols] [b.extents.headD 0])) := by
  unfold mmMultiarray Multiarray.requireCol
  rw [if_pos hcol]
  simp only [ne_eq, h, not_false_eq_true, if_true]
  rfl

theorem mmMultiarray_eq_of_fits (hcol : b.layout = .col) (hdim : a.cols = b.extents.headD 0) :
    mmMultiarray alpha a b =
      (Except.toFailure (Multiarray.zeros (α := α) (a.rows :: b.extents.drop 1) .col) >>= fun _ =>
        Word.prod (b.extents.drop 1) >>= fun nCols =>
          pure ⟨a.rows :: b.extents.drop 1, .col, (if a.rows = 0 then [] else
            (List.range nCols).map fun col => (List.range a.rows).map fun i =>
              alpha * sumTo (b.extents.headD 0) fun p =>
                a.read Element.dflt i p * b.data.getD (col * b.extents.headD 0 + p) Element.dflt
            ).flatten.toArray⟩) := by
  unfold mmMultiarray Multiarray.requireCol
  rw [if_pos hcol]
  simp only [hdim, ne_eq, not_true_eq_false, if_false]
  rfl

theorem mmMultiarray_of_alloc (hcol : b.layout = .col) (hdim : a.cols = b.extents.headD 0)
    {e : Error} (hz : (Multiarray.zeros (a.rows :: b.extents.drop 1) .col :
      Except Error (Multiarray α)) = .error e) :
    mmMultiarray alpha a b = .error (.error e) := by
  rw [mmMultiarray_eq_of_fits alpha a hcol hdim, hz]
  rfl

theorem mmMultiarray_of_overflow (hcol : b.layout = .col) (hdim : a.cols = b.extents.headD 0)
    {z : Multiarray α} (hz : (Multiarray.zeros (a.rows :: b.extents.drop 1) .col :
      Except Error (Multiarray α)) = .ok z) (hp : Word.prod? (b.extents.drop 1) = none) :
    mmMultiarray alpha a b = .error (.abort "attempt to multiply with overflow") := by
  rw [mmMultiarray_eq_of_fits alpha a hcol hdim, hz]
  show (Word.prod (b.extents.drop 1) >>= _) = _
  rw [prod_eq, hp]
  rfl

theorem mmMultiarray_of_ok (hcol : b.layout = .col) (hdim : a.cols = b.extents.headD 0)
    {z : Multiarray α} (hz : (Multiarray.zeros (a.rows :: b.extents.drop 1) .col :
      Except Error (Multiarray α)) = .ok z) {n : Nat} (hp : Word.prod? (b.extents.drop 1) = some n) :
    ∃ data, mmMultiarray alpha a b = .ok ⟨a.rows :: b.extents.drop 1, .col, data⟩ ∧
      data.size = n * a.rows ∧
      ∀ col < n, ∀ i < a.rows, data.getD (col * a.rows + i) Element.dflt =
        alpha * sumTo (b.extents.headD 0) fun p =>
          a.read Element.dflt i p * b.data.getD (col * b.extents.headD 0 + p) Element.dflt := by
  have hprod : Word.prod (b.extents.drop 1) = .ok n := by
    rw [prod_eq, hp]
  rw [mmMultiarray_eq_of_fits alpha a hcol hdim, hz, hprod]
  refine ⟨_, rfl, ?_, ?_⟩
  · split
    · simp [*]
    · exact size_flatten_grid _ _ _
  · intro col hcol' i hi
    have hrows : a.rows ≠ 0 := by omega
    simp only [hrows, if_false]
    exact getD_flatten_grid _ _ hcol' hi

end Product

section Columns

variable {β : Type}

def columnMatrix (x : Array β) (l : Layout) : Matrix β := ⟨x.size, 1, l, x, (Nat.mul_one _).symm⟩

end Columns

section Comparison

variable {α ρ : Type} [Scalar α ρ] (alpha : α) (a : Matrix α) {b : Multiarray α}

theorem mmNew_block (hzero : Element.eq (Scalar.zero : α) Scalar.zero = true) {e₀ e₁ : Nat}
    {rest t : List Nat} (hext : b.extents = e₀ :: e₁ :: rest) (hcol : b.layout = .col)
    (hdim : a.cols = e₀) (ht : List.Forall₂ (· < ·) t rest) {data : Array α}
    (hentry : ∀ col < e₁ * rest.prod, ∀ i < a.rows, data.getD (col * a.rows + i) Element.dflt =
      alpha * sumTo e₀ fun p => a.read Element.dflt i p * b.data.getD (col * e₀ + p) Element.dflt)
    {z : Matrix α} (hz : (Matrix.zeros a.rows e₁ .col : Except Error (Matrix α)) = .ok z)
    {bt ot : Matrix α} (hbt : b.subMatrix t = .ok bt)
    (hot : (⟨a.rows :: e₁ :: rest, .col, data⟩ : Multiarray α).subMatrix t = .ok ot) :
    mmNew .no .no alpha a bt .col = .ok ot := by
  have hbt' := subMatrix_eq_ok hext hcol ht hbt
  have hot' := subMatrix_eq_ok rfl rfl ht hot
  obtain ⟨hzr, hzc, hzl, -⟩ := matrix_zeros_ok hz
  have hz' : (Matrix.zeros (opExtents a .no).1 (opExtents bt .no).2 .col :
      Except Error (Matrix α)) = .ok z := by
    rw [hbt']
    exact hz
  have hlt := linear_col_lt ht
  rw [mmNew_of_zeros_ok hz']
  subst hbt' hot'
  set L := Layout.col.linear rest t
  rw [mm, mmWith_eq]
  simp only [opExtents, ofFn_rows, ofFn_cols, hdim, hzr, hzc, ne_eq, not_true_eq_false, or_self,
    if_false, hzl, hzero, combine, if_true]
  congr 1
  apply ofFn_congr
  intro i j hi hj
  have hcol' : L * e₁ + j < e₁ * rest.prod := by
    have h := Nat.mul_le_mul_right e₁ hlt
    rw [Nat.succ_mul, Nat.mul_comm rest.prod] at h
    omega
  rw [hentry _ hcol' _ hi]
  congr 1
  apply sumTo_congr
  intro p hp
  rw [opAt, opAt, Matrix.read_ofFn _ _ _ _ _ hp hj]

theorem toVector_product {e₀ : Nat} (hzero : Element.eq (Scalar.zero : α) Scalar.zero = true)
    (hext : b.extents = [e₀]) (hsize : b.data.size = e₀) (hdim : a.cols = e₀) {data : Array α}
    (hdsize : data.size = a.rows)
    (hentry : ∀ i < a.rows, data.getD i Element.dflt =
      alpha * sumTo e₀ fun p => a.read Element.dflt i p * b.data.getD p Element.dflt)
    {y : Vector α} (hy : (Vector.zeros a.rows : Except Error (Vector α)) = .ok y) :
    (⟨[a.rows], .col, data⟩ : Multiarray α).toVector =
      (b.toVector >>= fun x => mvNew .no alpha a x.data) := by
  have hysize := vector_zeros_ok hy
  have hy' : (Vector.zeros (opExtents a .no).1 : Except Error (Vector α)) = .ok y := hy
  have hb : b.toVector = .ok ⟨b.data⟩ := by
    simp [Multiarray.toVector, Multiarray.order, hext]
  have hout : (⟨[a.rows], .col, data⟩ : Multiarray α).toVector = .ok ⟨data⟩ := rfl
  rw [hout, hb]
  show _ = mvNew .no alpha a b.data
  rw [mvNew_of_zeros_ok hy', mv, mvWith_eq]
  simp only [opExtents, hsize, hdim, hysize, ne_eq, not_true_eq_false, or_self, if_false, hzero,
    combine, if_true]
  show (Except.ok (Vector.mk data) : Except Error (Vector α)) = Except.ok (Vector.mk _)
  congr 2
  apply Array.ext
  · simp [hdsize, hysize]
  · intro i hi _
    rw [Array.getElem_eq_getD Element.dflt, hentry i (hdsize ▸ hi)]
    simp [opAt]

theorem mvNew_eq_column (x : Array α) (l l' : Layout) :
    ((∃ v, mvNew .no alpha a x = .ok v) ↔
      ∃ C, mmNew .no .no alpha a (columnMatrix x l) l' = .ok C) ∧
    ∀ v C, mvNew .no alpha a x = .ok v → mmNew .no .no alpha a (columnMatrix x l) l' = .ok C →
      v.data.toList = (List.range C.rows).map fun i => C.read Element.dflt i 0 := by
  by_cases hvz : ∃ y, (Vector.zeros a.rows : Except Error (Vector α)) = .ok y
  · obtain ⟨y, hy⟩ := hvz
    obtain ⟨z, hz⟩ := (vector_zeros_iff_matrix_zeros a.rows l').mp ⟨y, hy⟩
    obtain ⟨hydata, -, -⟩ := vector_zeros_eq_ok hy
    obtain ⟨hzr, hzc, hzl, hzero⟩ := matrix_zeros_ok hz
    have hv : mvNew .no alpha a x = Vector.mk <$> mv .no alpha a x Scalar.zero y.data :=
      mvNew_of_zeros_ok (t := .no) hy
    have hC : mmNew .no .no alpha a (columnMatrix x l) l' =
        mm .no .no alpha a (columnMatrix x l) Scalar.zero z :=
      mmNew_of_zeros_ok hz
    rw [hv, hC, mv, mvWith_eq, mm, mmWith_eq]
    simp only [opExtents, columnMatrix, hydata, Array.size_replicate, hzr, hzc, ne_eq,
      not_true_eq_false, or_false, if_false]
    by_cases hx : x.size = a.cols
    · simp only [hx, not_true_eq_false, if_false]
      refine ⟨⟨fun _ => ⟨_, rfl⟩, fun _ => ⟨_, rfl⟩⟩, ?_⟩
      rintro v C ⟨⟩ ⟨⟩
      apply List.ext_getElem
      · simp
      · intro i hi _
        have hi' : i < a.rows := by simpa using hi
        simp only [Array.toList_mapIdx, List.getElem_mapIdx, Array.getElem_toList,
          Array.getElem_replicate, List.getElem_map, List.getElem_range]
        rw [Matrix.read_ofFn _ _ _ _ _ (hzr ▸ hi') Nat.one_pos, hzero _ _ _ hi' Nat.one_pos]
        congr 1
        apply sumTo_congr
        intro p _
        cases l <;> simp [opAt, Matrix.read, Matrix.offset, Layout.offset]
    · simp only [hx, not_false_eq_true, if_true]
      refine ⟨⟨?_, ?_⟩, ?_⟩
      · rintro ⟨_, ⟨⟩⟩
      · rintro ⟨_, ⟨⟩⟩
      · rintro _ _ ⟨⟩
  · obtain ⟨e, he⟩ : ∃ e, (Vector.zeros a.rows : Except Error (Vector α)) = .error e := by
      cases h : (Vector.zeros a.rows : Except Error (Vector α)) with
      | error e => exact ⟨e, rfl⟩
      | ok y => exact absurd ⟨y, h⟩ hvz
    obtain ⟨e', he'⟩ : ∃ e, (Matrix.zeros a.rows 1 l' : Except Error (Matrix α)) = .error e := by
      cases h : (Matrix.zeros a.rows 1 l' : Except Error (Matrix α)) with
      | error e => exact ⟨e, rfl⟩
      | ok z => exact absurd ((vector_zeros_iff_matrix_zeros a.rows l').mpr ⟨z, h⟩) hvz
    have hv : mvNew .no alpha a x = .error e := mvNew_of_zeros_error (t := .no) he
    have hC : mmNew .no .no alpha a (columnMatrix x l) l' = .error e' := mmNew_of_zeros_error he'
    rw [hv, hC]
    refine ⟨⟨?_, ?_⟩, ?_⟩
    · rintro ⟨_, ⟨⟩⟩
    · rintro ⟨_, ⟨⟩⟩
    · rintro _ _ ⟨⟩

end Comparison

section Products

variable {α ρ : Type} [Scalar α ρ] (alpha : α) (a : Matrix α) {b : Multiarray α}

theorem checkOrder_replace_first (hb : MultiarrayInv b) (r : Nat) :
    checkOrder (r :: b.extents.drop 1) = .ok () := by
  have hpos := hb.order_pos
  have hle := hb.order_le
  unfold Multiarray.order at hpos hle
  unfold checkOrder
  rw [if_neg (by simp; omega)]

theorem blocks_of_product (hzero : Element.eq (Scalar.zero : α) Scalar.zero = true)
    (hb : MultiarrayInv b) (hfit : b.data.size ≤ Word.max) {e₀ e₁ : Nat} {rest t : List Nat}
    (hext : b.extents = e₀ :: e₁ :: rest) (hcol : b.layout = .col) (hdim : a.cols = e₀)
    {N : Nat} (hN : Word.prod? (a.rows :: e₁ :: rest) = some N)
    (hres : Storage.reserve "Multiarray" (a.rows :: e₁ :: rest) N (Element.size α) = .ok ())
    (htail : e₁ * rest.prod ≤ Word.max) {data : Array α}
    (hentry : ∀ col < e₁ * rest.prod, ∀ i < a.rows, data.getD (col * a.rows + i) Element.dflt =
      alpha * sumTo e₀ fun p => a.read Element.dflt i p * b.data.getD (col * e₀ + p) Element.dflt)
    (ht : List.Forall₂ (· < ·) t rest) :
    (0 < e₁ → (∃ bt, b.subMatrix t = .ok bt) ∧
      ∃ ot, (⟨a.rows :: e₁ :: rest, .col, data⟩ : Multiarray α).subMatrix t = .ok ot) ∧
    ∀ bt ot, b.subMatrix t = .ok bt →
      (⟨a.rows :: e₁ :: rest, .col, data⟩ : Multiarray α).subMatrix t = .ok ot →
      mmNew .no .no alpha a bt .col = .ok ot := by
  obtain ⟨hpair, rfl, hNmax⟩ := prod?_cons_cons hN
  have hrest_pos : 0 < rest.prod := Nat.lt_of_le_of_lt (Nat.zero_le _) (linear_col_lt ht)
  refine ⟨fun hpos => ⟨?_, ?_⟩, fun bt ot hbt hot => ?_⟩
  · have hsize : b.data.size = e₀ * e₁ * rest.prod := by
      rw [hb.size_eq, hext, List.prod_cons, List.prod_cons, Nat.mul_assoc]
    exact ⟨_, subMatrix_ok hext hcol ht hpos (le_trans (Nat.le_mul_of_pos_left _ hpos) htail)
      (hsize ▸ hfit)⟩
  · exact ⟨_, subMatrix_ok rfl rfl ht hpos (le_trans (Nat.le_mul_of_pos_left _ hpos) htail)
      hNmax⟩
  · obtain ⟨z, hz⟩ := matrix_zeros_of_reserve (α := α) .col hpair hres
      (Nat.le_mul_of_pos_right _ hrest_pos)
    exact mmNew_block alpha a hzero hext hcol hdim ht hentry hz hbt hot

theorem vector_of_product (hzero : Element.eq (Scalar.zero : α) Scalar.zero = true)
    (hb : MultiarrayInv b) {e₀ : Nat} (hext : b.extents = [e₀]) (hdim : a.cols = e₀) {N : Nat}
    (hN : Word.prod? [a.rows] = some N)
    (hres : Storage.reserve "Multiarray" [a.rows] N (Element.size α) = .ok ()) {data : Array α}
    (hsize : data.size = 1 * a.rows)
    (hentry : ∀ col < 1, ∀ i < a.rows, data.getD (col * a.rows + i) Element.dflt =
      alpha * sumTo e₀ fun p => a.read Element.dflt i p * b.data.getD (col * e₀ + p) Element.dflt) :
    (⟨[a.rows], .col, data⟩ : Multiarray α).toVector =
      (b.toVector >>= fun x => mvNew .no alpha a x.data) := by
  obtain rfl : N = a.rows := by simpa using foldlM_mul?_eq_some hN
  obtain ⟨y, hy⟩ := vector_zeros_of_reserve hN hres le_rfl
  have hbsize : b.data.size = e₀ := by rw [hb.size_eq, hext, List.prod_singleton]
  exact toVector_product alpha a hzero hext hbsize hdim (by omega)
    (fun i hi => by simpa using hentry 0 Nat.one_pos i hi) hy

end Products

section Main

variable {α ρ : Type} [Scalar α ρ]

/-- Products along the first extent, for a multiarray `B` that keeps its invariant with a
buffer that fits a word, over a scalar type whose zero equals itself. A `B` that is not
column-major is refused first, then an inner extent other than the columns of `A`; then the
result is allocated, and only an allocation error can come of that. The number of columns
of `B` is then formed as a word product, and overflows only for a result without rows.
Otherwise the result has the extents of `B` with the rows of `A` first, column-major; an
order-one result is `mvNew` of `A` and the buffer of `B`, and at every tuple below the
trailing extents the block of the result is `mmNew` of `A` and the block of `B` (both blocks
are had when the second extent is not zero). Apart from that, `mvNew` of `A` and `x` is column
`0` of `mmNew` of `A` and `x` as a one-column matrix. -/
theorem mmMultiarray_matches_matrix_products
    (hzero : Element.eq (Scalar.zero : α) Scalar.zero = true) (alpha : α) (a : Matrix α)
    (b : Multiarray α) (hb : MultiarrayInv b) (hfit : b.data.size ≤ Word.max) :
    (b.layout ≠ .col →
      mmMultiarray alpha a b = .error (.error (.layout "mm_multiarray" .col b.layout))) ∧
    (b.layout = .col → a.cols ≠ b.extents.headD 0 →
      mmMultiarray alpha a b =
        .error (.error (.dimension "mm_multiarray" [a.cols] [b.extents.headD 0]))) ∧
    (b.layout = .col → a.cols = b.extents.headD 0 →
      (∀ e, (Multiarray.zeros (a.rows :: b.extents.drop 1) .col :
          Except Error (Multiarray α)) = .error e →
        (∃ c es r, e = .allocation c es r) ∧ mmMultiarray alpha a b = .error (.error e)) ∧
      (a.rows = 0 → Word.prod? (b.extents.drop 1) = none →
        mmMultiarray alpha a b = .error (.abort "attempt to multiply with overflow")) ∧
      ((∃ z, (Multiarray.zeros (a.rows :: b.extents.drop 1) .col :
          Except Error (Multiarray α)) = .ok z) →
        (a.rows = 0 → Word.prod? (b.extents.drop 1) ≠ none) →
        ∃ out, mmMultiarray alpha a b = .ok out ∧ out.extents = a.rows :: b.extents.drop 1 ∧
          out.layout = .col ∧
          (b.order = 1 → out.toVector = (b.toVector >>= fun x => mvNew .no alpha a x.data)) ∧
          (2 ≤ b.order → ∀ t, List.Forall₂ (· < ·) t (b.extents.drop 2) →
            (0 < (b.extents.drop 1).headD 0 →
              (∃ bt, b.subMatrix t = .ok bt) ∧ ∃ ot, out.subMatrix t = .ok ot) ∧
            ∀ bt ot, b.subMatrix t = .ok bt → out.subMatrix t = .ok ot →
              mmNew .no .no alpha a bt .col = .ok ot))) ∧
    ∀ (x : Array α) (l l' : Layout),
      ((∃ v, mvNew .no alpha a x = .ok v) ↔
        ∃ C, mmNew .no .no alpha a (columnMatrix x l) l' = .ok C) ∧
      ∀ v C, mvNew .no alpha a x = .ok v → mmNew .no .no alpha a (columnMatrix x l) l' = .ok C →
        v.data.toList = (List.range C.rows).map fun i => C.read Element.dflt i 0 := by
  refine ⟨mmMultiarray_of_row alpha a, mmMultiarray_of_dimension alpha a, fun hcol hdim => ?_,
    fun x l l' => mvNew_eq_column alpha a x l l'⟩
  refine ⟨fun e he => ⟨multiarray_zeros_error (checkOrder_replace_first hb _) he,
    mmMultiarray_of_alloc alpha a hcol hdim he⟩, fun hr hp => ?_, fun ⟨z, hz⟩ hnone => ?_⟩
  · obtain ⟨z, hz⟩ := multiarray_zeros_of_zero (α := α) .col (checkOrder_replace_first hb 0)
    rw [← hr] at hz
    exact mmMultiarray_of_overflow alpha a hcol hdim hz hp
  · obtain ⟨N, hN, hres⟩ := multiarray_zeros_ok hz
    -- the column count is had: past a first factor that is not zero, the allocation checked it
    obtain ⟨n, hn⟩ : ∃ n, Word.prod? (b.extents.drop 1) = some n := by
      by_cases hr : a.rows = 0
      · exact Option.ne_none_iff_exists'.mp (hnone hr)
      · exact prod?_tail_of_cons hN (Nat.pos_of_ne_zero hr)
    have hnprod : n = (b.extents.drop 1).prod := by simpa using foldlM_mul?_eq_some hn
    have hnmax : n ≤ Word.max := foldlM_mul?_le_max hn (by decide)
    obtain ⟨data, hout, hsize, hentry⟩ := mmMultiarray_of_ok alpha a hcol hdim hz hn
    refine ⟨_, hout, rfl, rfl, fun hone => ?_, fun htwo t ht => ?_⟩
    · obtain ⟨e₀, hext⟩ : ∃ e₀, b.extents = [e₀] := List.length_eq_one_iff.mp hone
      simp only [hext, List.drop_succ_cons, List.drop_zero,
        List.headD_cons] at hN hres hn hentry hdim ⊢
      obtain rfl : n = 1 := by simpa [Word.prod?] using hn.symm
      exact vector_of_product alpha a hzero hb hext hdim hN hres hsize hentry
    · obtain ⟨e₀, e₁, rest, hext⟩ : ∃ e₀ e₁ rest, b.extents = e₀ :: e₁ :: rest := by
        rcases hext : b.extents with _ | ⟨e₀, _ | ⟨e₁, rest⟩⟩ <;>
          simp [Multiarray.order, hext] at htwo ⊢
      simp only [hext, List.drop_succ_cons, List.drop_zero, List.headD_cons,
        List.prod_cons] at hN hres hnprod hnmax hentry hdim ht ⊢
      subst hnprod
      exact blocks_of_product alpha a hzero hb hfit hext hcol hdim hN hres hnmax hentry ht

end Main

def emptyMatrix : Matrix Float := ⟨0, 0, .col, #[], rfl⟩

def wideEmpty : Multiarray Float := ⟨[0, 2 ^ 63, 2], .col, #[]⟩

/-- The product of the empty matrix with `wideEmpty` passes every check, allocates its empty
result and then aborts on the number of columns. -/
theorem mmMultiarray_column_count_overflows :
    MultiarrayInv wideEmpty ∧
      mmMultiarray 1.0 emptyMatrix wideEmpty = .error (.abort "attempt to multiply with overflow") := by
  have hb : MultiarrayInv wideEmpty := ⟨by decide, by decide, by decide⟩
  obtain ⟨-, -, hfits, -⟩ :=
    mmMultiarray_matches_matrix_products (by decide) 1.0 emptyMatrix wideEmpty hb (by decide)
  exact ⟨hb, (hfits rfl rfl).2.1 rfl (by decide)⟩

end DualArrays.Proofs.MultiarrayProducts
