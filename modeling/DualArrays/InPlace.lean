import DualArrays.Error

namespace DualArrays

/-- An operation on a container of type `σ` that writes in place and ends with a value of
type `α` or an error. -/
abbrev InPlace (σ α : Type) := ExceptT Error (StateM σ) α

namespace InPlace

variable {σ α β : Type}

def run (m : InPlace σ α) (s : σ) : Except Error α × σ :=
  Id.run (StateT.run (ExceptT.run m) s)

def lift (r : Except Error α) : InPlace σ α :=
  match r with
  | .ok a => pure a
  | .error e => throw e

def eval (m : InPlace σ α) (s : σ) : Except Error (α × σ) :=
  match m.run s with
  | (.ok a, s') => .ok (a, s')
  | (.error e, _) => .error e

def apply (m : InPlace σ Unit) (s : σ) : Except Error σ :=
  match m.run s with
  | (.ok (), s') => .ok s'
  | (.error e, _) => .error e

@[simp] theorem run_pure (a : α) (s : σ) : (pure a : InPlace σ α).run s = (.ok a, s) := rfl

@[simp] theorem run_get (s : σ) : (get : InPlace σ σ).run s = (.ok s, s) := rfl

@[simp] theorem run_modify (f : σ → σ) (s : σ) :
    (modify f : InPlace σ Unit).run s = (.ok (), f s) := rfl

@[simp] theorem run_throw (e : Error) (s : σ) : (throw e : InPlace σ α).run s = (.error e, s) :=
  rfl

@[simp] theorem run_lift (r : Except Error α) (s : σ) : (lift r : InPlace σ α).run s = (r, s) := by
  cases r <;> rfl

@[simp] theorem run_bind (m : InPlace σ α) (f : α → InPlace σ β) (s : σ) :
    (m >>= f).run s =
      match m.run s with
      | (.ok a, s') => (f a).run s'
      | (.error e, s') => (.error e, s') := by
  simp only [run, ExceptT.run_bind, StateT.run_bind]
  rcases (ExceptT.run m).run s with ⟨_ | _, _⟩ <;> rfl

@[simp] theorem run_map (f : α → β) (m : InPlace σ α) (s : σ) :
    (f <$> m).run s =
      match m.run s with
      | (.ok a, s') => (.ok (f a), s')
      | (.error e, s') => (.error e, s') := by
  simp only [run, ExceptT.run_map, StateT.run_map]
  rcases (ExceptT.run m).run s with ⟨_ | _, _⟩ <;> rfl

@[simp] theorem run_ite (c : Prop) [Decidable c] (a b : InPlace σ α) (s : σ) :
    (if c then a else b).run s = if c then a.run s else b.run s := by
  split <;> rfl

@[simp] theorem run_lift_bind (r : Except Error α) (f : α → InPlace σ β) (s : σ) :
    (lift r >>= f).run s =
      match r with
      | .ok a => (f a).run s
      | .error e => (.error e, s) := by
  cases r <;> rfl

theorem apply_eq_ok {m : InPlace σ Unit} {s s' : σ} : m.apply s = .ok s' ↔ m.run s = (.ok (), s') := by
  unfold apply
  constructor
  · intro h
    split at h
    · next heq => cases h; exact heq
    · cases h
  · intro h
    rw [h]

theorem eval_eq_ok {m : InPlace σ α} {s s' : σ} {a : α} :
    m.eval s = .ok (a, s') ↔ m.run s = (.ok a, s') := by
  unfold eval
  constructor
  · intro h
    split at h
    · next heq => cases h; exact heq
    · cases h
  · intro h
    rw [h]

end InPlace

end DualArrays
