import DualArrays.Kernel.ComplexStep
import DualArrays.Proofs.MatrixEntries
import DualArrays.Proofs.Outcomes

/-!
A Jacobian by complex steps is the real evaluation followed by one column per input. The
serial `jacobian` allocates the result and computes the columns in index order, stopping
at the first that fails; `jacobianParWith` computes every column, gathered by the thread
pool, before it allocates. Both are described here through `collectInOrder`, the
gathering in index order, whose successes and first failure are characterised first.
-/

namespace DualArrays.Proofs.Jacobian

open DualArrays DualArrays.ComplexStep
open DualArrays.Proofs.Outcomes

section InOrder

variable {α : Type}

def FirstError (f : Nat → Except Error α) (n : Nat) (e : Error) : Prop :=
  ∃ j < n, f j = .error e ∧ ∀ i < j, ∃ c, f i = .ok c

theorem firstError_succ {f : Nat → Except Error α} {n : Nat} {e : Error} :
    FirstError f (n + 1) e ↔
      FirstError f n e ∨ (∀ i < n, ∃ c, f i = .ok c) ∧ f n = .error e := by
  constructor
  · rintro ⟨j, hj, hfail, hbefore⟩
    rcases Nat.lt_succ_iff_lt_or_eq.mp hj with hj | rfl
    · exact .inl ⟨j, hj, hfail, hbefore⟩
    · exact .inr ⟨hbefore, hfail⟩
  · rintro (⟨j, hj, hfail, hbefore⟩ | ⟨hbefore, hfail⟩)
    · exact ⟨j, by omega, hfail, hbefore⟩
    · exact ⟨n, by omega, hfail, hbefore⟩

theorem collectInOrder_succ (f : Nat → Except Error α) (n : Nat) :
    collectInOrder f (n + 1) =
      (collectInOrder f n >>= fun cs => f n >>= fun c => pure (cs ++ [c])) := by
  unfold collectInOrder
  rw [List.range_succ, List.mapM_append, List.mapM_cons, List.mapM_nil]
  cases (List.range n).mapM f <;> cases f n <;> rfl

theorem collectInOrder_succ_eq_ok {f : Nat → Except Error α} {n : Nat} {cs : List α} :
    collectInOrder f (n + 1) = .ok cs ↔
      ∃ ps c, collectInOrder f n = .ok ps ∧ f n = .ok c ∧ cs = ps ++ [c] := by
  rw [collectInOrder_succ, bind_eq_ok]
  constructor
  · rintro ⟨ps, hps, hc⟩
    obtain ⟨c, hc, hcs⟩ := bind_eq_ok.mp hc
    exact ⟨ps, c, hps, hc, (Except.ok.inj hcs).symm⟩
  · rintro ⟨ps, c, hps, hc, rfl⟩
    exact ⟨ps, hps, bind_eq_ok.mpr ⟨c, hc, rfl⟩⟩

theorem collectInOrder_succ_eq_error {f : Nat → Except Error α} {n : Nat} {e : Error} :
    collectInOrder f (n + 1) = .error e ↔
      collectInOrder f n = .error e ∨ (∃ ps, collectInOrder f n = .ok ps) ∧ f n = .error e := by
  rw [collectInOrder_succ, bind_eq_error]
  cases collectInOrder f n with
  | error e' => simp
  | ok ps => cases f n <;> simp [bind, Except.bind, pure, Except.pure]

theorem collectInOrder_ok {f : Nat → Except Error α} {n : Nat} {cs : List α}
    (h : collectInOrder f n = .ok cs) (d : α) :
    cs.length = n ∧ ∀ j < n, f j = .ok (cs.getD j d) := by
  induction n generalizing cs with
  | zero =>
      cases h
      exact ⟨rfl, fun j hj => absurd hj (Nat.not_lt_zero j)⟩
  | succ n ih =>
      obtain ⟨ps, c, hps, hc, rfl⟩ := collectInOrder_succ_eq_ok.mp h
      obtain ⟨hlen, hcols⟩ := ih hps
      refine ⟨by simp [hlen], ?_⟩
      intro j hj
      rcases Nat.lt_succ_iff_lt_or_eq.mp hj with hj | rfl
      · rw [hcols j hj, List.getD_append _ _ _ _ (by omega)]
      · rw [hc, List.getD_append_right _ _ _ _ (by omega)]
        simp [hlen]

theorem collectInOrder_isOk_iff (f : Nat → Except Error α) (n : Nat) :
    (∃ cs, collectInOrder f n = .ok cs) ↔ ∀ j < n, ∃ c, f j = .ok c := by
  induction n with
  | zero => exact ⟨fun _ j hj => absurd hj (Nat.not_lt_zero j), fun _ => ⟨[], rfl⟩⟩
  | succ n ih =>
      constructor
      · rintro ⟨cs, h⟩ j hj
        obtain ⟨ps, c, hps, hc, -⟩ := collectInOrder_succ_eq_ok.mp h
        rcases Nat.lt_succ_iff_lt_or_eq.mp hj with hj | rfl
        · exact ih.mp ⟨ps, hps⟩ j hj
        · exact ⟨c, hc⟩
      · intro hall
        obtain ⟨ps, hps⟩ := ih.mpr fun j hj => hall j (by omega)
        obtain ⟨c, hc⟩ := hall n (by omega)
        exact ⟨ps ++ [c], collectInOrder_succ_eq_ok.mpr ⟨ps, c, hps, hc, rfl⟩⟩

theorem collectInOrder_error_iff (f : Nat → Except Error α) (n : Nat) (e : Error) :
    collectInOrder f n = .error e ↔ FirstError f n e := by
  induction n with
  | zero =>
      constructor
      · intro h
        cases h
      · rintro ⟨j, hj, -⟩
        exact absurd hj (Nat.not_lt_zero j)
  | succ n ih =>
      rw [collectInOrder_succ_eq_error, firstError_succ, ih, collectInOrder_isOk_iff]

end InOrder

section Columns

variable (s : ComplexStep) (k : DualKernel) (x : Array Float)

theorem jacobianColumn_eq {v : Vector Float} (hv : k.evaluateIn x = .ok v) (j : Nat) :
    s.jacobianColumn k x j = s.column k x j (if s.checkDuality then some v.data else none) := by
  unfold jacobianColumn
  cases s.checkDuality <;> simp [hv, Except.map, Functor.map, bind, Except.bind, pure, Except.pure]

/-- `c` is column `j` of the Jacobian: the imaginary parts of the outputs at `x` with input
`j` perturbed, divided by the step. -/
def IsColumn (j : Nat) (c : Vector Float) : Prop :=
  ∃ xc fc, s.perturb x j = .ok xc ∧ k.evaluateIn xc.data = .ok fc ∧
    c.data = fc.data.map fun z => z.im / s.step

theorem IsColumn.size {j : Nat} {c : Vector Float} (h : IsColumn s k x j c) :
    c.size = k.outputs := by
  obtain ⟨xc, fc, -, hfc, hc⟩ := h
  rw [← DualKernel.evaluateIn_size hfc]
  simp [Vector.size, hc]

theorem column_ok {j : Nat} {b : Option (Array Float)} {c : Vector Float}
    (h : s.column k x j b = .ok c) : IsColumn s k x j c := by
  unfold column at h
  obtain ⟨xc, hxc, h⟩ := bind_eq_ok.mp h
  obtain ⟨fc, hfc, h⟩ := bind_eq_ok.mp h
  refine ⟨xc, fc, hxc, hfc, ?_⟩
  -- both branches of the duality check end in the same join point
  obtain ⟨col, hcol, hc⟩ : ∃ col, fc.imagPart = .ok col ∧
      (⟨col.data.map (· / s.step)⟩ : Vector Float) = c := by
    cases b with
    | none =>
        obtain ⟨col, hcol, hc⟩ := bind_eq_ok.mp h
        exact ⟨col, hcol, Except.ok.inj hc⟩
    | some real =>
        obtain ⟨_, -, h⟩ := bind_eq_ok.mp h
        obtain ⟨col, hcol, hc⟩ := bind_eq_ok.mp h
        exact ⟨col, hcol, Except.ok.inj hc⟩
  subst hc
  unfold Vector.imagPart at hcol
  obtain ⟨_, -, hcol⟩ := bind_eq_ok.mp hcol
  cases hcol
  simp [Scalar.im]

theorem jacobian_of_value_error {e : Error} (he : k.evaluateIn x = .error e) :
    s.jacobian k x = .error e := by
  unfold jacobian
  rw [he]
  rfl

theorem jacobian_eq {v : Vector Float} (hv : k.evaluateIn x = .ok v) {z : Matrix Float}
    (hz : (Matrix.zeros k.outputs x.size .col : Except Error (Matrix Float)) = .ok z) :
    s.jacobian k x =
      (collectInOrder (s.jacobianColumn k x) x.size).map fun cs => (v, ofColumns k.outputs cs) := by
  have hcols : s.jacobianColumn k x =
      fun j => s.column k x j (if s.checkDuality then some v.data else none) :=
    funext (jacobianColumn_eq s k x hv)
  unfold jacobian
  rw [hv, hcols]
  rw [hz]
  simp only [bind, Except.bind]
  unfold collectInOrder
  cases (List.range x.size).mapM
    (fun j => s.column k x j (if s.checkDuality then some v.data else none)) <;> rfl

theorem read_ofColumns (m : Nat) (cols : List (Vector Float)) (d : Float) {i j : Nat}
    (hi : i < m) (hj : j < cols.length) :
    (ofColumns m cols).read d i j = (cols.getD j ⟨#[]⟩).data.getD i 0.0 :=
  Matrix.read_ofFn _ _ _ _ _ hi hj

structure JacobianSpec : Prop where
  ok_iff : (∃ L, s.jacobian k x = .ok L) ↔
    (∃ v, k.evaluateIn x = .ok v) ∧ ∀ j < x.size, ∃ c, s.jacobianColumn k x j = .ok c
  result : ∀ {v M}, s.jacobian k x = .ok (v, M) →
    k.evaluateIn x = .ok v ∧ M.rows = k.outputs ∧ M.cols = x.size ∧ M.layout = .col ∧
      ∀ j < x.size, ∃ c, s.jacobianColumn k x j = .ok c ∧ IsColumn s k x j c ∧
        c.size = k.outputs ∧ ∀ i < k.outputs, M.read 0.0 i j = c.data.getD i 0.0
  value_error : ∀ {e}, k.evaluateIn x = .error e → s.jacobian k x = .error e
  column_error : ∀ {v e}, k.evaluateIn x = .ok v →
    (s.jacobian k x = .error e ↔ FirstError (s.jacobianColumn k x) x.size e)

theorem jacobian_of_alloc_error {v : Vector Float} (hv : k.evaluateIn x = .ok v) {e : Error}
    (hz : (Matrix.zeros k.outputs x.size .col : Except Error (Matrix Float)) = .error e) :
    s.jacobian k x = .error e := by
  unfold jacobian
  rw [hv, hz]
  rfl

theorem jacobian_value_ok {L : Vector Float × Matrix Float} (h : s.jacobian k x = .ok L) :
    ∃ v, k.evaluateIn x = .ok v := by
  cases hv : k.evaluateIn x with
  | ok v => exact ⟨v, rfl⟩
  | error e =>
      rw [jacobian_of_value_error s k x hv] at h
      cases h

theorem jacobian_characterization
    (halloc : ∃ z, (Matrix.zeros k.outputs x.size .col : Except Error (Matrix Float)) = .ok z) :
    JacobianSpec s k x := by
  obtain ⟨z, hz⟩ := halloc
  refine ⟨?ok_iff, ?result, jacobian_of_value_error s k x, ?column_error⟩
  case ok_iff =>
    constructor
    · rintro ⟨L, hL⟩
      obtain ⟨v, hv⟩ := jacobian_value_ok s k x hL
      rw [jacobian_eq s k x hv hz, map_eq_ok] at hL
      obtain ⟨cs, hcs, -⟩ := hL
      exact ⟨⟨v, hv⟩, (collectInOrder_isOk_iff _ _).mp ⟨cs, hcs⟩⟩
    · rintro ⟨⟨v, hv⟩, hall⟩
      obtain ⟨cs, hcs⟩ := (collectInOrder_isOk_iff _ _).mpr hall
      rw [jacobian_eq s k x hv hz, hcs]
      exact ⟨_, rfl⟩
  case result =>
    intro v M hL
    obtain ⟨v', hv⟩ := jacobian_value_ok s k x hL
    rw [jacobian_eq s k x hv hz, map_eq_ok] at hL
    obtain ⟨cs, hcs, hvM⟩ := hL
    cases hvM
    obtain ⟨hlen, hcols⟩ := collectInOrder_ok hcs ⟨#[]⟩
    refine ⟨hv, rfl, hlen, rfl, ?_⟩
    intro j hj
    have hc := hcols j hj
    have hcol : IsColumn s k x j (cs.getD j ⟨#[]⟩) :=
      column_ok s k x (by rw [← jacobianColumn_eq s k x hv]; exact hc)
    exact ⟨_, hc, hcol, hcol.size, fun i hi => read_ofColumns _ _ _ hi (hlen ▸ hj)⟩
  case column_error =>
    intro v e hv
    rw [jacobian_eq s k x hv hz, map_eq_error, collectInOrder_error_iff]

end Columns

theorem jacobian_characterization_at_identity :
    (∃ z, (Matrix.zeros 1 1 .col : Except Error (Matrix Float)) = .ok z) ∧
      JacobianSpec {} ⟨1, 1, fun x => .ok fun _ => x.getD 0 0.0,
        fun x => .ok fun _ => x.getD 0 Complex.zero'⟩ #[2.0] :=
  ⟨⟨_, rfl⟩, jacobian_characterization _ _ _ ⟨_, rfl⟩⟩

section Parallel

/-- What a parallel collector is relied on to do: when every result is a value it hands the
values over in index order, and otherwise it fails with the error of some failing index. -/
structure LawfulCollect {α : Type}
    (collect : (Nat → Except Error α) → Nat → Except Error (List α)) : Prop where
  ok_iff : ∀ f n cs, collect f n = .ok cs ↔ collectInOrder f n = .ok cs
  error_of : ∀ f n e, collect f n = .error e → ∃ j < n, f j = .error e

theorem collectInOrder_lawful {α : Type} : LawfulCollect (collectInOrder (α := α)) where
  ok_iff _ _ _ := Iff.rfl
  error_of f n e h := by
    obtain ⟨j, hj, hfail, -⟩ := (collectInOrder_error_iff f n e).mp h
    exact ⟨j, hj, hfail⟩

variable (collect : (Nat → Except Error (Vector Float)) → Nat → Except Error (List (Vector Float)))
  (s : ComplexStep) (k : DualKernel) (x : Array Float)

theorem jacobianParWith_of_value_error {e : Error} (he : k.evaluateIn x = .error e) :
    jacobianParWith collect s k x = .error e := by
  unfold jacobianParWith
  rw [he]
  rfl

theorem jacobianParWith_eq {v : Vector Float} (hv : k.evaluateIn x = .ok v) :
    jacobianParWith collect s k x =
      (collect (s.jacobianColumn k x) x.size >>= fun cols =>
        (Matrix.zeros k.outputs x.size .col : Except Error (Matrix Float)) >>= fun _ =>
          pure (v, ofColumns k.outputs cols)) := by
  have hcols : s.jacobianColumn k x =
      fun j => s.column k x j (if s.checkDuality then some v.data else none) :=
    funext (jacobianColumn_eq s k x hv)
  unfold jacobianParWith
  rw [hv, hcols]
  rfl

theorem jacobianParWith_eq_jacobian_of_value {collect} (hc : LawfulCollect collect)
    {v : Vector Float} (hv : k.evaluateIn x = .ok v) :
    jacobianParWith collect s k x = s.jacobian k x ↔
      ∀ e, collect (s.jacobianColumn k x) x.size = .error e →
        (∀ e', (Matrix.zeros k.outputs x.size .col : Except Error (Matrix Float)) = .error e' →
          e' = e) ∧
        ((∃ z, (Matrix.zeros k.outputs x.size .col : Except Error (Matrix Float)) = .ok z) →
          FirstError (s.jacobianColumn k x) x.size e) := by
  rw [jacobianParWith_eq collect s k x hv]
  cases hcol : collect (s.jacobianColumn k x) x.size with
  | ok cs =>
      have hserial := (hc.ok_iff _ _ _).mp hcol
      cases hz : (Matrix.zeros k.outputs x.size .col : Except Error (Matrix Float)) with
      | error ez => simp [jacobian_of_alloc_error s k x hv hz, bind, Except.bind]
      | ok z => simp [jacobian_eq s k x hv hz, hserial, Except.map, bind, Except.bind, pure, Except.pure]
  | error e₁ =>
      cases hz : (Matrix.zeros k.outputs x.size .col : Except Error (Matrix Float)) with
      | error ez =>
          rw [jacobian_of_alloc_error s k x hv hz]
          simp [bind, Except.bind, eq_comm]
      | ok z =>
          rw [jacobian_eq s k x hv hz]
          simp [bind, Except.bind, eq_comm (a := Except.error e₁), map_eq_error,
            collectInOrder_error_iff]

theorem jacobianParWith_eq_jacobian_iff {collect} (hc : LawfulCollect collect) :
    jacobianParWith collect s k x = s.jacobian k x ↔
      ∀ v e, k.evaluateIn x = .ok v → collect (s.jacobianColumn k x) x.size = .error e →
        (∀ e', (Matrix.zeros k.outputs x.size .col : Except Error (Matrix Float)) = .error e' →
          e' = e) ∧
        ((∃ z, (Matrix.zeros k.outputs x.size .col : Except Error (Matrix Float)) = .ok z) →
          FirstError (s.jacobianColumn k x) x.size e) := by
  cases hv : k.evaluateIn x with
  | error e₀ =>
      rw [jacobianParWith_of_value_error collect s k x hv, jacobian_of_value_error s k x hv]
      simp
  | ok v =>
      rw [jacobianParWith_eq_jacobian_of_value s k x hc hv]
      constructor
      · intro h v' e hv'
        cases hv'
        exact h e
      · intro h e
        exact h v e rfl

def realOnlyKernel : DualKernel :=
  ⟨3, 2 ^ 32, fun _ => .ok fun _ => 0.0, fun _ => .error (.invalidArgument "no complex extension")⟩

/-- The serial loop reports the allocation of the Jacobian, the pool the failing column. -/
theorem jacobianPar_allocates_after_columns :
    jacobianPar {} realOnlyKernel #[0.0, 0.0, 0.0] ≠
      ({} : ComplexStep).jacobian realOnlyKernel #[0.0, 0.0, 0.0] := by
  intro h
  have hv : realOnlyKernel.evaluateIn #[0.0, 0.0, 0.0] =
      .ok ⟨Array.ofFn fun _ : Fin (2 ^ 32) => 0.0⟩ := rfl
  have hcol : collectInOrder (({} : ComplexStep).jacobianColumn realOnlyKernel #[0.0, 0.0, 0.0]) 3 =
      .error (.invalidArgument "no complex extension") := rfl
  have hz : (Matrix.zeros (2 ^ 32) 3 .col : Except Error (Matrix Float)) =
      .error (.allocation "Matrix" [2 ^ 32, 3] .allocatorFailure) := rfl
  have hsame :=
    ((jacobianParWith_eq_jacobian_iff {} realOnlyKernel #[0.0, 0.0, 0.0] collectInOrder_lawful).mp
      h _ _ hv hcol).1
  cases hsame _ hz

end Parallel

end DualArrays.Proofs.Jacobian
