import Mathlib
import DualArrays.Script.Multiarrays
import DualArrays.Script.Sparse
import DualArrays.Script.Nesting
import DualArrays.Proofs.CsrReaders
import DualArrays.Proofs.InPlaceWrites

/-!
# Containers keep their shape along every sequence

A sequence builds a container with one of its constructors and then applies steps to it; a
step that fails leaves the container as it was (`Proofs.InPlaceWrites`). The states a sequence
can be in are `Reachable`, and each kind of container has its shape rule:

* a matrix holds `rows * cols` entries, which its type carries;
* a multiarray has from one to `maxOrder` extents and holds their product of entries
  (`MultiarrayInv`);
* a vector array has as many extents and holds one entry per index (`VectorArrayInv`);
* a sparse operator passes `validate` (`CsrRows.Valid`).

Every reachable state keeps its rule (`sequence_invariants`): each constructor establishes
it and each step that succeeds preserves it. So do the containers a step hands back: the
rows and columns of a matrix, the multiarray over a matrix, a copied multiarray, an operator
compressed from a matrix or copied.
-/

namespace DualArrays.Proofs.ProtocolInvariants

open DualArrays DualArrays.Script
open DualArrays.Proofs.Outcomes DualArrays.Proofs.MatrixEntries DualArrays.Proofs.CsrRows
open DualArrays.Proofs.CsrReaders DualArrays.Proofs.InPlaceWrites

section Lift

variable {β : Type}

@[simp] theorem run_lift_eq_ok {r : Except Error β} {b : β} : Run.lift r = .ok b ↔ r = .ok b := by
  cases r <;> simp [Run.lift, Except.mapError]

@[simp] theorem run_liftF_eq_ok {r : Except Failure β} {b : β} :
    Run.liftF r = .ok b ↔ r = .ok b := by
  cases r <;> simp [Run.liftF, Except.mapError]

end Lift

section Leaves

variable {σ β γ : Type} {P : σ → Prop}

def Leaves (P : σ → Prop) (x : Run (β × σ)) : Prop :=
  ∀ r s', x = .ok (r, s') → P s'

@[simp] theorem leaves_bind {x : Run γ} {f : γ → Run (β × σ)} :
    Leaves P (x >>= f) ↔ ∀ a, x = .ok a → Leaves P (f a) := by
  cases x with
  | error e => simp [Leaves, bind, Except.bind]
  | ok a => simp [Leaves, bind, Except.bind]

@[simp] theorem leaves_map {x : Run γ} {f : γ → β × σ} :
    Leaves P (f <$> x) ↔ ∀ a, x = .ok a → P (f a).2 := by
  cases x with
  | error e => simp [Leaves, Functor.map, Except.map]
  | ok a =>
    simp only [Leaves, Functor.map, Except.map, Except.ok.injEq, forall_eq']
    constructor
    · intro h
      exact h _ _ rfl
    · rintro h r s' he
      rw [he] at h
      exact h

@[simp] theorem leaves_pure {r : β} {s : σ} : Leaves P (pure (r, s)) ↔ P s := by
  simp [Leaves, pure, Except.pure]

@[simp] theorem leaves_query {s : σ} {r : Json} : Leaves P (query s r) ↔ P s :=
  leaves_pure

@[simp] theorem leaves_mutate {s : σ} : Leaves P (mutate s) ↔ P s :=
  leaves_pure

@[simp] theorem leaves_bad {msg : String} : Leaves (β := β) P (Run.bad msg) := by
  simp [Leaves, Run.bad]

end Leaves

section Reach

variable {σ : Type} (init : Json → Run σ) (step : σ → Json → Run (Json × σ))

/-- The states of a sequence: what `init` builds from some request, and what a step that
succeeds leaves. A step that fails leaves the state it was given, which is reachable
already. -/
inductive Reachable : σ → Prop
  | init {j : Json} {s : σ} : init j = .ok s → Reachable s
  | step {s s' : σ} {st r : Json} : Reachable s → step s st = .ok (r, s') → Reachable s'

variable {init step}

theorem Reachable.invariant {P : σ → Prop} (hinit : ∀ j s, init j = .ok s → P s)
    (hstep : ∀ s st, P s → Leaves P (step s st)) {s : σ} (h : Reachable init step s) : P s := by
  induction h with
  | init hj => exact hinit _ _ hj
  | step _ hs ih => exact hstep _ _ ih _ _ hs

end Reach

section Storage

theorem foldlM_mul?_eq_some {xs : List Nat} {a n : Nat} (h : xs.foldlM Word.mul? a = some n) :
    n = a * xs.prod := by
  induction xs generalizing a with
  | nil =>
    cases h
    simp
  | cons x xs ih =>
    rw [List.foldlM_cons] at h
    cases hm : Word.mul? a x with
    | none => simp [hm] at h
    | some b =>
      have hb : b = a * x := by
        unfold Word.mul? at hm
        split at hm <;> simp_all
      rw [hm, Option.bind_eq_bind, Option.bind_some] at h
      rw [ih h, hb, List.prod_cons, Nat.mul_assoc]

theorem checkedLen_eq_prod {c : String} {xs : List Nat} {n : Nat}
    (h : Storage.checkedLen c xs = .ok n) : n = xs.prod := by
  simpa using foldlM_mul?_eq_some (checkedLen_ok h)

theorem checkLen_eq_prod {c : String} {xs : List Nat} {len : Nat}
    (h : Storage.checkLen c xs len = .ok ()) : len = xs.prod := by
  unfold Storage.checkLen at h
  obtain ⟨n, hn, h⟩ := bind_eq_ok.mp h
  rw [← checkedLen_eq_prod hn]
  by_cases hne : n ≠ len
  · simp [hne] at h
  · exact (not_not.mp hne).symm

theorem checkOrder_ok {extents : List Nat} (h : checkOrder extents = .ok ()) :
    1 ≤ extents.length ∧ extents.length ≤ maxOrder := by
  unfold checkOrder at h
  split at h
  · cases h
  · omega

theorem storage_copy_eq {α : Type} [Element α] {c : String} {e : List Nat} {src data : Array α}
    (h : Storage.copy c e src = .ok data) : data = src := by
  unfold Storage.copy at h
  obtain ⟨-, -, h⟩ := bind_eq_ok.mp h
  cases h
  rfl

end Storage

section Multiarrays

variable {α : Type}

structure MultiarrayInv (m : Multiarray α) : Prop where
  order_pos : 1 ≤ m.order
  order_le : m.order ≤ maxOrder
  size_eq : m.data.size = m.extents.prod

theorem MultiarrayInv.of_checkOrder {extents : List Nat} {l : Layout} {data : Array α}
    (horder : checkOrder extents = .ok ()) (hsize : data.size = extents.prod) :
    MultiarrayInv ⟨extents, l, data⟩ :=
  ⟨(checkOrder_ok horder).1, (checkOrder_ok horder).2, hsize⟩

theorem MultiarrayInv.of_size {β : Type} {m : Multiarray α} {m' : Multiarray β}
    (hm : MultiarrayInv m) (hext : m'.extents = m.extents) (hsize : m'.data.size = m.data.size) :
    MultiarrayInv m' :=
  ⟨by rw [Multiarray.order, hext]; exact hm.order_pos,
    by rw [Multiarray.order, hext]; exact hm.order_le, by rw [hsize, hext, hm.size_eq]⟩

theorem MultiarrayInv.mapData {β : Type} {m : Multiarray α} (h : MultiarrayInv m) (f : α → β) :
    MultiarrayInv (m.mapData f) :=
  h.of_size rfl (by simp [Multiarray.mapData])

theorem MultiarrayInv.fill {m : Multiarray α} (h : MultiarrayInv m) (x : α) :
    MultiarrayInv (m.fill x) :=
  h.of_size rfl (by simp [Multiarray.fill])

theorem MultiarrayInv.scale {α ρ : Type} [Scalar α ρ] {m : Multiarray α} (h : MultiarrayInv m)
    (a : α) : MultiarrayInv (m.scale a) :=
  h.mapData _

theorem ofMatrix_inv (m : Matrix α) : MultiarrayInv (Multiarray.ofMatrix m) :=
  ⟨by simp [Multiarray.ofMatrix, Multiarray.order], by simp [Multiarray.ofMatrix,
    Multiarray.order, maxOrder], by simp [Multiarray.ofMatrix, m.size_eq]⟩

theorem ofData_inv {container : String} {extents : List Nat} {l : Layout} {data : Array α}
    {m : Multiarray α} (h : Multiarray.ofData container extents l data = .ok m) :
    MultiarrayInv m := by
  unfold Multiarray.ofData at h
  obtain ⟨⟨⟩, horder, h⟩ := bind_eq_ok.mp h
  obtain ⟨⟨⟩, hlen, h⟩ := bind_eq_ok.mp h
  cases h
  exact MultiarrayInv.of_checkOrder horder (checkLen_eq_prod hlen)

theorem asMultiarrayOf_inv {f : Json → Run α} {j : Json} {m : Multiarray α}
    (h : asMultiarrayOf f j = .ok m) : MultiarrayInv m := by
  unfold asMultiarrayOf at h
  simp only [bind_eq_ok] at h
  obtain ⟨_, _, extents, _, _, _, layout, _, _, _, data, _, h⟩ := h
  -- the view flag only renames the container in errors
  split at h
  · obtain ⟨_, _, h⟩ := bind_eq_ok.mp h
    exact ofData_inv (run_lift_eq_ok.mp h)
  · exact ofData_inv (run_lift_eq_ok.mp h)

variable [Element α]

theorem filled_inv {extents : List Nat} {l : Layout} {x : α} {m : Multiarray α}
    (h : Multiarray.filled extents l x = .ok m) : MultiarrayInv m := by
  unfold Multiarray.filled at h
  obtain ⟨⟨⟩, horder, h⟩ := bind_eq_ok.mp h
  obtain ⟨len, hlen, h⟩ := bind_eq_ok.mp h
  obtain ⟨data, hdata, h⟩ := bind_eq_ok.mp h
  cases h
  refine MultiarrayInv.of_checkOrder horder ?_
  rw [Storage.filled_size hdata, checkedLen_eq_prod hlen]

theorem zerosWith_inv {c : Config} {extents : List Nat} {m : Multiarray α}
    (h : Multiarray.zerosWith c extents = .ok m) : MultiarrayInv m :=
  filled_inv h

theorem copy_inv {m m' : Multiarray α} (hm : MultiarrayInv m) (h : m.copy = .ok m') :
    MultiarrayInv m' := by
  unfold Multiarray.copy at h
  obtain ⟨data, hdata, h⟩ := bind_eq_ok.mp h
  cases h
  rw [storage_copy_eq hdata]
  exact hm

theorem MultiarrayInv.set {m : Multiarray α} (hm : MultiarrayInv m) (index : List Nat) (x : α) :
    ∀ m', m.set index x = .ok m' → MultiarrayInv m' := by
  intro m' h
  have hrun := InPlace.apply_eq_ok.mp h
  rw [multiarray_setIn_run] at hrun
  split_ifs at hrun
  · cases hrun
    exact hm.of_size rfl (by simp)
  · cases hrun

end Multiarrays

section MultiarraySequences

variable {α ρ : Type} [Scalar α ρ] [ScriptScalar α ρ]

omit [ScriptScalar α ρ] in
theorem ofReal_inv {src : Multiarray ρ} (hsrc : MultiarrayInv src) {m : Multiarray α}
    (h : Multiarray.ofReal src = .ok m) : MultiarrayInv m := by
  unfold Multiarray.ofReal at h
  obtain ⟨_, _, h⟩ := bind_eq_ok.mp h
  cases h
  exact hsrc.mapData _

omit [ScriptScalar α ρ] in
theorem coefficients_inv {c : Config} {p : Nat} {m : Multiarray α}
    (h : Multiarray.coefficients c p = .ok m) : MultiarrayInv m := by
  unfold Multiarray.coefficients at h
  obtain ⟨_, _, h⟩ := bind_eq_ok.mp h
  exact zerosWith_inv (toFailure_eq_ok h)

theorem multiarrayInit_inv {j : Json} {m : Multiarray α} (h : multiarrayInit α ρ j = .ok m) :
    MultiarrayInv m := by
  unfold multiarrayInit at h
  split at h <;> simp only [bind_eq_ok, run_lift_eq_ok, run_liftF_eq_ok] at h
  · obtain ⟨_, _, _, _, _, _, _, _, h⟩ := h
    exact filled_inv h
  · obtain ⟨_, _, _, _, _, _, _, _, _, _, h⟩ := h
    exact filled_inv h
  · obtain ⟨a, _, h⟩ := h
    cases h
    exact ofMatrix_inv a
  · obtain ⟨src, hsrc, h⟩ := h
    exact ofReal_inv (asMultiarrayOf_inv hsrc) h
  · obtain ⟨_, _, _, _, _, _, h⟩ := h
    exact zerosWith_inv h
  · obtain ⟨_, _, h⟩ := h
    exact zerosWith_inv h
  · obtain ⟨_, _, h⟩ := h
    exact zerosWith_inv h
  · obtain ⟨_, _, h⟩ := h
    exact zerosWith_inv h
  · obtain ⟨_, _, _, _, _, _, h⟩ := h
    exact coefficients_inv h
  · exact asMultiarrayOf_inv h

theorem multiarrayStep_inv [RealFloat ρ] {m : Multiarray α} (hm : MultiarrayInv m) (st : Json) :
    Leaves MultiarrayInv (multiarrayStep α ρ m st) := by
  unfold multiarrayStep
  simp only [leaves_bind]
  intro _ _ fn _
  split <;> simp [hm, hm.fill, hm.scale]
  intro _ _ index _ x _
  exact hm.set index x

end MultiarraySequences

section VectorArrays

variable {α : Type}

structure VectorArrayInv (a : VectorArray α) : Prop where
  order_pos : 1 ≤ a.order
  order_le : a.order ≤ maxOrder
  size_eq : a.entries.size = a.extents.prod

theorem VectorArrayInv.of_size {a b : VectorArray α} (ha : VectorArrayInv a)
    (hext : b.extents = a.extents) (hsize : b.entries.size = a.entries.size) : VectorArrayInv b :=
  ⟨by rw [VectorArray.order, hext]; exact ha.order_pos,
    by rw [VectorArray.order, hext]; exact ha.order_le, by rw [hsize, hext, ha.size_eq]⟩

theorem mapM_length {ε β γ : Type} {f : β → Except ε γ} {xs : List β} {ys : List γ}
    (h : xs.mapM f = .ok ys) : ys.length = xs.length := by
  induction xs generalizing ys with
  | nil =>
    cases h
    rfl
  | cons x xs ih =>
    rw [List.mapM_cons] at h
    obtain ⟨_, _, h⟩ := bind_eq_ok.mp h
    obtain ⟨ys', hys', h⟩ := bind_eq_ok.mp h
    cases h
    simp [ih hys']

theorem length_starts (lens acc : List Nat) :
    (lens.foldl (fun acc n => acc ++ [acc.getLastD 0 + n]) acc).length =
      acc.length + lens.length := by
  induction lens generalizing acc with
  | nil => rfl
  | cons n lens ih =>
    rw [List.foldl_cons, ih]
    simp only [List.length_append, List.length_cons, List.length_nil]
    omega

theorem VectorArrayInv.set {a : VectorArray α} (ha : VectorArrayInv a) (index : List Nat)
    (v : Vector α) : ∀ a', a.set index v = .ok a' → VectorArrayInv a' := by
  intro a' h
  have hrun := InPlace.apply_eq_ok.mp h
  rw [vectorArray_setIn_run] at hrun
  split at hrun
  · cases hrun
    exact ha.of_size rfl (by simp)
  · cases hrun

theorem VectorArrayInv.sort {a : VectorArray α} (ha : VectorArrayInv a) (lt : α → α → Bool) :
    VectorArrayInv (a.sort lt) :=
  ha.of_size rfl (by simp [VectorArray.sort, VectorArray.sortEntries])

theorem VectorArrayInv.sortIndexed {a : VectorArray α} (ha : VectorArrayInv a)
    (lt : α → α → Bool) : ∀ ordering a', a.sortIndexed lt = .ok (ordering, a') →
      VectorArrayInv a' := by
  intro ordering a' h
  have hrun := InPlace.eval_eq_ok.mp h
  rw [sortIndexedIn_run] at hrun
  cases hrun
  have hlen := (ordering_perm (a.sortEntries lt) lt).length_eq
  exact ha.of_size rfl (by simpa [VectorArray.sortEntries] using hlen)

theorem new_eq {extents : List Nat} {a : VectorArray α} (h : VectorArray.new extents = .ok a) :
    checkOrder extents = .ok () ∧ a = ⟨extents, Array.replicate extents.prod ⟨#[]⟩⟩ := by
  unfold VectorArray.new at h
  obtain ⟨⟨⟩, horder, h⟩ := bind_eq_ok.mp h
  obtain ⟨len, hlen, h⟩ := bind_eq_ok.mp h
  obtain ⟨⟨⟩, _, h⟩ := bind_eq_ok.mp h
  cases h
  exact ⟨horder, by rw [checkedLen_eq_prod hlen]⟩

theorem new_inv {extents : List Nat} {a : VectorArray α} (h : VectorArray.new extents = .ok a) :
    VectorArrayInv a := by
  obtain ⟨horder, rfl⟩ := new_eq h
  exact ⟨(checkOrder_ok horder).1, (checkOrder_ok horder).2, by simp⟩

variable [Element α]

theorem ofFlat_inv {extents : List Nat} {values : Array α} {lens : List Nat} {a : VectorArray α}
    (h : VectorArray.ofFlat extents values lens = .ok a) : VectorArrayInv a := by
  unfold VectorArray.ofFlat at h
  obtain ⟨out, hout, h⟩ := bind_eq_ok.mp h
  obtain ⟨horder, rfl⟩ := new_eq (toFailure_eq_ok hout)
  dsimp only at h
  split at h
  · obtain ⟨_, hthrow, -⟩ := bind_eq_ok.mp h
    cases hthrow
  obtain ⟨_, _, h⟩ := bind_eq_ok.mp h
  split at h
  · obtain ⟨_, hthrow, -⟩ := bind_eq_ok.mp h
    cases hthrow
  obtain ⟨entries, hentries, h⟩ := bind_eq_ok.mp h
  cases h
  have hlen := mapM_length (toFailure_eq_ok hentries)
  refine ⟨(checkOrder_ok horder).1, (checkOrder_ok horder).2, ?_⟩
  rw [List.size_toArray, hlen, List.length_zip, length_starts]
  simp_all [VectorArray.size]

end VectorArrays

section VectorArraySequences

variable {α : Type} [Element α] [ScriptInt α]

theorem vectorArrayInit_inv {j : Json} {a : VectorArray α} (h : vectorArrayInit α j = .ok a) :
    VectorArrayInv a := by
  unfold vectorArrayInit asFlatVectorArray at h
  split at h
  · obtain ⟨_, _, h⟩ := bind_eq_ok.mp h
    exact new_inv (run_lift_eq_ok.mp h)
  · simp only [bind_eq_ok, run_liftF_eq_ok] at h
    obtain ⟨_, _, _, _, _, _, _, _, _, _, _, _, h⟩ := h
    exact ofFlat_inv h
  · cases h

theorem vectorArrayStep_inv {a : VectorArray α} (ha : VectorArrayInv a) (st : Json) :
    Leaves VectorArrayInv (vectorArrayStep α a st) := by
  unfold vectorArrayStep
  simp only [leaves_bind]
  intro _ _ fn _
  split <;> simp [ha, ha.sort]
  · intro _ _ index _ _ _ v _
    exact ha.set index v
  · exact ha.sortIndexed _

end VectorArraySequences

section CsrSequences

variable {α ρ : Type} [RealFloat ρ] [Scalar α ρ] [ScriptScalar α ρ]

omit [ScriptScalar α ρ] in
theorem copied_accepted {x : Run (Csr α)} (hx : ∀ b, x = .ok b → Accepted (ρ := ρ) b)
    {view : Bool} {a : Csr α} (h : (x >>= fun b => if view then Run.lift b.copy else pure b) = .ok a) :
    Accepted (ρ := ρ) a := by
  obtain ⟨b, hb, h⟩ := bind_eq_ok.mp h
  split at h
  · exact .copy (hx b hb) (run_lift_eq_ok.mp h)
  · cases h
    exact hx _ hb

omit [ScriptScalar α ρ] in
theorem asCsrOf_accepted {f : Json → Run α} {j : Json} {a : Csr α} (h : asCsrOf f j = .ok a) :
    Accepted (ρ := ρ) a := by
  unfold asCsrOf at h
  simp only [bind_eq_ok] at h
  obtain ⟨_, _, rowIndex, _, _, _, columns, _, _, _, values, _, h⟩ := h
  have hcols : ∀ n b, Run.lift (Csr.withCols n rowIndex.toArray columns.toArray values.toArray) =
      .ok b → Accepted (ρ := ρ) b := fun _ _ hb => .withCols (run_lift_eq_ok.mp hb)
  have hparts : ∀ b, Run.liftF (Csr.ofParts rowIndex.toArray columns.toArray values.toArray) =
      .ok b → Accepted (ρ := ρ) b := fun _ hb => .ofParts (run_liftF_eq_ok.mp hb)
  generalize j.opt "view" = viewFlag at h
  generalize j.opt "cols" = colCount at h
  cases viewFlag <;> cases colCount <;> dsimp only at h <;>
    obtain ⟨_, _, h⟩ := bind_eq_ok.mp h
  · exact copied_accepted hparts h
  · obtain ⟨n, _, h⟩ := bind_eq_ok.mp h
    exact copied_accepted (hcols n) h
  · exact copied_accepted hparts h
  · obtain ⟨n, _, h⟩ := bind_eq_ok.mp h
    exact copied_accepted (hcols n) h

theorem csrInit_accepted {j : Json} {a : Csr α} (h : csrInit α ρ j = .ok a) :
    Accepted (ρ := ρ) a := by
  unfold csrInit at h
  split at h
  · simp only [bind_eq_ok, run_liftF_eq_ok] at h
    obtain ⟨_, _, _, _, h⟩ := h
    exact .ofDense h
  · exact asCsrOf_accepted h

theorem csrStep_accepted {a : Csr α} (ha : Accepted (ρ := ρ) a) (st : Json) :
    Leaves (Accepted (ρ := ρ)) (csrStep α ρ a st) := by
  unfold csrStep
  simp only [leaves_bind]
  intro _ _ fn _
  split <;> simp [ha]
  intro _ _ k _ x _
  split
  · exact leaves_mutate.mpr (.setValue k x ha)
  · exact leaves_bad

end CsrSequences

section Views

variable {α : Type}

theorem rowAt_size {op : String} {m : Matrix α} {i : Nat} {v : Vector α}
    (h : Matrix.rowAt op m i = .ok v) : v.size = m.cols := by
  unfold Matrix.rowAt at h
  obtain ⟨⟨⟩, _, h⟩ := bind_eq_ok.mp h
  split at h
  · cases h
    have hend : i * m.cols + m.cols ≤ m.data.size := by
      rw [m.size_eq, ← Nat.succ_mul]
      exact Nat.mul_le_mul_right _ (by omega)
    simp [Vector.size, Nat.min_eq_left hend]
  · cases h

theorem colAt_size {op : String} {m : Matrix α} {j : Nat} {v : Vector α}
    (h : Matrix.colAt op m j = .ok v) : v.size = m.rows := by
  unfold Matrix.colAt at h
  obtain ⟨⟨⟩, _, h⟩ := bind_eq_ok.mp h
  split at h
  · cases h
    have hend : j * m.rows + m.rows ≤ m.data.size := by
      rw [m.size_eq, ← Nat.succ_mul, Nat.mul_comm m.rows m.cols]
      exact Nat.mul_le_mul_right _ (by omega)
    simp [Vector.size, Nat.min_eq_left hend]
  · cases h

end Views

section Sequences

variable (α ρ : Type) [RealFloat ρ] [Scalar α ρ] [ScriptScalar α ρ]

/-- The shape rules that hold along every sequence, and of what its steps hand back. A
matrix carries its rule in its type, and so do the rows of a matrix sliced off, a matrix
relaid, transposed or multiplied, and the matrices cut from a multiarray or expanded from an
operator. -/
structure SequenceInvariants : Prop where
  matrix : ∀ m, Reachable (matrixInit α ρ) (matrixStep α ρ) m → m.data.size = m.rows * m.cols
  multiarray : ∀ m, Reachable (multiarrayInit α ρ) (multiarrayStep α ρ) m → MultiarrayInv m
  vector_array : ∀ (ι : Type) [Element ι] [ScriptInt ι] (a : VectorArray ι),
    Reachable (vectorArrayInit ι) (vectorArrayStep ι) a → VectorArrayInv a
  csr : ∀ a, Reachable (csrInit α ρ) (csrStep α ρ) a →
    Valid a.rowIndex a.columns a.values.size a.cols
  row : ∀ (op : String) (m : Matrix α) (i : Nat) (v : Vector α),
    Matrix.rowAt op m i = .ok v → v.size = m.cols
  col : ∀ (op : String) (m : Matrix α) (j : Nat) (v : Vector α),
    Matrix.colAt op m j = .ok v → v.size = m.rows
  to_multiarray : ∀ m : Matrix α, MultiarrayInv (Multiarray.ofMatrix m)
  multiarray_copy : ∀ m m' : Multiarray α, MultiarrayInv m → m.copy = .ok m' → MultiarrayInv m'
  from_dense : ∀ (m : Matrix α) (tol : ρ) (a : Csr α), Csr.ofDense m tol = .ok a →
    Valid a.rowIndex a.columns a.values.size a.cols
  to_operator : ∀ a b : Csr α, Valid a.rowIndex a.columns a.values.size a.cols →
    a.copy = .ok b → Valid b.rowIndex b.columns b.values.size b.cols

theorem sequence_invariants_hold : SequenceInvariants α ρ where
  matrix m _ := m.size_eq
  multiarray _ h := h.invariant (fun _ _ => multiarrayInit_inv) fun _ st hm => multiarrayStep_inv hm st
  vector_array _ _ _ _ h :=
    h.invariant (fun _ _ => vectorArrayInit_inv) fun _ st ha => vectorArrayStep_inv ha st
  csr _ h := valid_of_accepted
    (h.invariant (fun _ _ => csrInit_accepted) fun _ st ha => csrStep_accepted ha st)
  row _ _ _ _ := rowAt_size
  col _ _ _ _ := colAt_size
  to_multiarray := ofMatrix_inv
  multiarray_copy _ _ := copy_inv
  from_dense _ _ _ h := valid_of_accepted (Accepted.ofDense (ρ := ρ) h)
  to_operator _ _ hv h := (copy_eq_ok h) ▸ hv

end Sequences

end DualArrays.Proofs.ProtocolInvariants
