import DualArrays.Proofs.BasisSize

namespace DualArrays.Proofs.RepeatedVectors

open DualArrays DualArrays.Proofs.Outcomes DualArrays.Proofs.CsrRows
open DualArrays.Proofs.BasisSize DualArrays.Proofs.CsrReaders

section Words

theorem prod?_pair (n r : Nat) :
    Word.prod? [n, r] = if n ≤ Word.max ∧ n * r ≤ Word.max then some (n * r) else none := by
  by_cases hn : n ≤ Word.max
  · by_cases hnr : n * r ≤ Word.max <;> simp [Word.prod?, Word.mul?, hn, hnr]
  · simp [Word.prod?, Word.mul?, hn]

end Words

section Reads

variable {α : Type}

theorem get_eq_ok_iff {v : Vector α} {i : Nat} {x : α} :
    v.get i = .ok x ↔ v.data[i]? = some x := by
  unfold Vector.get
  split <;> simp_all

end Reads

section Chunks

variable {α ρ : Type} [Scalar α ρ] (alpha : α)

theorem foldl_write_zipIdx (xs : List α) {start j : Nat} {L M : List α} (R : List α)
    (hL : L.length = start + j) (hM : M.length = xs.length) :
    (xs.zipIdx j).foldl (fun b p => b.setIfInBounds (start + p.2) (alpha * p.1))
        (L ++ M ++ R).toArray =
      (L ++ xs.map (alpha * ·) ++ R).toArray := by
  induction xs generalizing j L M with
  | nil =>
    obtain rfl : M = [] := List.eq_nil_of_length_eq_zero hM
    rfl
  | cons x xs ih =>
    obtain ⟨m, M', rfl⟩ := List.exists_cons_of_length_eq_add_one hM
    have hset : (L ++ m :: M' ++ R).toArray.setIfInBounds (start + j) (alpha * x) =
        ((L ++ [alpha * x]) ++ M' ++ R).toArray := by
      rw [← Array.toList_inj]
      simp [← hL, List.set_append_right]
    rw [List.zipIdx_cons, List.foldl_cons, hset,
      ih (by simp [hL]; omega) (by simpa using hM)]
    simp

theorem fillChunk_eq (a : Array α) {start : Nat} {L M : List α} (R : List α)
    (hL : L.length = start) (hM : M.length = a.size) :
    Vector.fillChunk alpha a a.size start (L ++ M ++ R).toArray =
      (L ++ a.toList.map (alpha * ·) ++ R).toArray := by
  unfold Vector.fillChunk
  rw [List.take_of_length_le (by simp)]
  exact foldl_write_zipIdx alpha a.toList R (by simpa using hL) (by simpa using hM)

theorem fill_chunks (a : Array α) {r : Nat} :
    ∀ k, k ≤ r →
      (List.range k).foldl (fun buf k => Vector.fillChunk alpha a a.size (k * a.size) buf)
          (List.replicate (a.size * r) (Scalar.zero : α)).toArray =
        ((List.replicate k (a.toList.map (alpha * ·))).flatten ++
          List.replicate ((r - k) * a.size) Scalar.zero).toArray
  | 0, _ => by simp [Nat.mul_comm]
  | k + 1, hk => by
    rw [List.range_succ, List.foldl_append, List.foldl_cons, List.foldl_nil,
      fill_chunks a k (by omega)]
    have hsplit : (r - k) * a.size = a.size + (r - (k + 1)) * a.size := by
      rw [show r - k = (r - (k + 1)) + 1 by omega, Nat.succ_mul, Nat.add_comm]
    rw [hsplit, List.replicate_add, ← List.append_assoc,
      fillChunk_eq alpha a _ (by simp) (by simp)]
    simp [List.replicate_succ']

def copies (a : Array α) (r : Nat) : Array α :=
  (List.replicate r (a.toList.map (alpha * ·))).flatten.toArray

theorem copies_size (a : Array α) (r : Nat) : (copies alpha a r).size = a.size * r := by
  simp [copies, Nat.mul_comm]

theorem copies_getElem? (a : Array α) {r k i : Nat} (hk : k < r) (hi : i < a.size) :
    (copies alpha a r)[k * a.size + i]? = some (alpha * a[i]) := by
  have h := flatten_getElem?_offset (List.replicate r (a.toList.map (alpha * ·)))
    (r := k) (k := i) (by simpa using hk) (by simpa using hi)
  have hoff : (((List.replicate r (a.toList.map (alpha * ·))).map List.length).take k).sum =
      k * a.size := by
    simp [List.take_replicate, Nat.min_eq_left hk.le]
  rw [hoff] at h
  simp [copies, h]

end Chunks

section Repeated

variable {α ρ : Type} [Scalar α ρ] (alpha : α)

theorem repeated_eq (a : Vector α) (r : Nat) :
    Vector.repeated alpha a r =
      if a.size ≤ Word.max ∧ a.size * r ≤ Word.max then
        (Storage.reserve "Vector" [a.size * r] (a.size * r) (Element.size α)).map
          fun _ => ⟨copies alpha a.data r⟩
      else .error (.allocation "Vector" [a.size, r] .extentOverflow) := by
  unfold Vector.repeated
  simp only [Storage.checkedLen, prod?_pair]
  split_ifs with hfit
  · cases hres : Storage.reserve "Vector" [a.size * r] (a.size * r) (Element.size α) with
    | error e => simp [Storage.filled, hres, bind, Except.bind, Except.map]
    | ok u =>
      simp only [Storage.filled, hres, bind, Except.bind, pure, Except.pure, Except.map,
        Array.size_replicate, Except.ok.injEq, Vector.mk.injEq]
      by_cases hn : a.size = 0
      · have hempty : a.data = #[] := Array.eq_empty_of_size_eq_zero hn
        simp [copies, hn, hempty]
      · have hwidth : Nat.max a.size 1 = a.size := Nat.max_eq_left (by omega)
        have hchunks : Nat.min (a.size * r / a.size) r = r := by
          rw [Nat.mul_div_cancel_left r (by omega)]
          exact Nat.min_self r
        rw [hwidth, hchunks, ← List.toArray_replicate]
        refine (fill_chunks alpha a.data r le_rfl).trans ?_
        simp [copies]
  · rfl

theorem get_copies (a : Vector α) {r k i : Nat} {x : α} (hk : k < r) (hx : a.get i = .ok x) :
    (⟨copies alpha a.data r⟩ : Vector α).get (k * a.size + i) = .ok (alpha * x) := by
  obtain ⟨hi, rfl⟩ := Array.getElem?_eq_some_iff.mp (get_eq_ok_iff.mp hx)
  exact get_eq_ok_iff.mpr (copies_getElem? alpha a.data hk hi)

structure Repeats (alpha : α) (a : Vector α) (r : Nat) (res : Except Error (Vector α)) :
    Prop where
  overflow : Word.max < a.size * r → res = .error (.allocation "Vector" [a.size, r] .extentOverflow)
  unallocated : a.size ≤ Word.max → a.size * r ≤ Word.max → ∀ e,
    Storage.reserve "Vector" [a.size * r] (a.size * r) (Element.size α) = .error e →
      res = .error e ∧ ∃ reason, e = .allocation "Vector" [a.size * r] reason
  copies : a.size ≤ Word.max → a.size * r ≤ Word.max →
    Storage.reserve "Vector" [a.size * r] (a.size * r) (Element.size α) = .ok () →
      ∃ v, res = .ok v ∧ v.size = a.size * r ∧
        ∀ k i x, k < r → a.get i = .ok x → v.get (k * a.size + i) = .ok (alpha * x)

theorem repeats (a : Vector α) (r : Nat) : Repeats alpha a r (Vector.repeated alpha a r) where
  overflow hover := by
    rw [repeated_eq, if_neg (fun h => Nat.not_le_of_lt hover h.2)]
  unallocated hn hfit e he := by
    rw [repeated_eq, if_pos ⟨hn, hfit⟩, he]
    exact ⟨rfl, reserve_eq_error he⟩
  copies hn hfit hres := by
    rw [repeated_eq, if_pos ⟨hn, hfit⟩, hres]
    exact ⟨_, rfl, copies_size alpha a.data r, fun k i x hk hx => get_copies alpha a hk hx⟩

theorem repeated_error {a : Vector α} {r : Nat} {e : Error}
    (h : Vector.repeated alpha a r = .error e) : ∃ c es reason, e = .allocation c es reason := by
  rw [repeated_eq] at h
  split_ifs at h
  · cases hres : Storage.reserve "Vector" [a.size * r] (a.size * r) (Element.size α) with
    | error e' =>
      rw [hres] at h
      cases h
      obtain ⟨reason, rfl⟩ := reserve_eq_error hres
      exact ⟨_, _, _, rfl⟩
    | ok u =>
      rw [hres] at h
      cases h
  · cases h
    exact ⟨_, _, _, rfl⟩

end Repeated

section TwoVectors

variable {α ρ : Type} [Scalar α ρ]

theorem zipMap_of_eq {a b : Vector α} (f : α → α → α) (h : a.size = b.size) :
    ∃ c, a.zipMap b f = .ok c ∧ c.size = a.size ∧
      ∀ i x y, a.get i = .ok x → b.get i = .ok y → c.get i = .ok (f x y) := by
  have hsize : (Array.zipWith f a.data b.data).size = a.size := by
    simp only [Vector.size, Array.size_zipWith] at h ⊢
    omega
  refine ⟨⟨Array.zipWith f a.data b.data⟩, if_pos h, hsize, ?_⟩
  intro i x y hx hy
  rw [get_eq_ok_iff] at hx hy ⊢
  simp [Array.getElem?_zipWith, hx, hy]

theorem zipMap_of_ne {a b : Vector α} (f : α → α → α) (h : a.size ≠ b.size) :
    a.zipMap b f = .error (.dimension "Vector::zip_map" [a.size] [b.size]) := if_neg h

structure CombinesFirst (f : α → α → α) (build : Vector α → Except Error (Vector α))
    (a b : Vector α) (res : Except Error (Vector α)) : Prop where
  mismatch : a.size ≠ b.size → res = .error (.dimension "Vector::zip_map" [a.size] [b.size])
  combined : a.size = b.size → ∃ c, c.size = a.size ∧
    (∀ i x y, a.get i = .ok x → b.get i = .ok y → c.get i = .ok (f x y)) ∧ res = build c

theorem combinesFirst_zipMap (f : α → α → α) (a b : Vector α) :
    CombinesFirst f .ok a b (a.zipMap b f) where
  mismatch h := zipMap_of_ne f h
  combined h := by
    obtain ⟨c, hc, hsize, hget⟩ := zipMap_of_eq f h
    exact ⟨c, hsize, hget, hc⟩

theorem combinesFirst_bind (f : α → α → α) (build : Vector α → Except Error (Vector α))
    (a b : Vector α) : CombinesFirst f build a b (a.zipMap b f >>= build) where
  mismatch h := by rw [zipMap_of_ne f h]; rfl
  combined h := by
    obtain ⟨c, hsize, hget, hc⟩ := (combinesFirst_zipMap f a b).combined h
    exact ⟨c, hsize, hget, by rw [hc]; rfl⟩

end TwoVectors

/-- The repeated constructors. `repeated α a r` is `r` copies of `α a` or an allocation error
(`Repeats`). `dotMult` and `dotMultInverse2nd` are `repeated` of the entry-wise product and
quotient, and `sumScaled` is the entry-wise `α₀ a + α₁ b`; the three give the dimension error of
the entry-wise map exactly when the lengths differ, whatever the number of copies. -/
structure RepeatedConstructors (α ρ : Type) [Scalar α ρ] : Prop where
  repeated : ∀ (alpha : α) a r, Repeats alpha a r (Vector.repeated alpha a r)
  dotMult : ∀ (alpha : α) a b r,
    CombinesFirst (· * ·) (Vector.repeated alpha · r) a b (Vector.dotMult alpha a b r)
  dotMultInverse2nd : ∀ (alpha : α) a b r,
    CombinesFirst (· / ·) (Vector.repeated alpha · r) a b (Vector.dotMultInverse2nd alpha a b r)
  sumScaled : ∀ (alpha0 alpha1 : α) a b,
    CombinesFirst (fun x y => alpha0 * x + alpha1 * y) .ok a b (Vector.sumScaled alpha0 a alpha1 b)
  no_dimension_error : ∀ (alpha alpha0 alpha1 : α) (a b : Vector α) r, a.size = b.size →
    (∀ e, Vector.dotMult alpha a b r = .error e → ∃ c es reason, e = .allocation c es reason) ∧
    (∀ e, Vector.dotMultInverse2nd alpha a b r = .error e →
      ∃ c es reason, e = .allocation c es reason) ∧
    ∃ c, Vector.sumScaled alpha0 a alpha1 b = .ok c

theorem repeated_constructors (α ρ : Type) [Scalar α ρ] :
    RepeatedConstructors α ρ where
  repeated := repeats
  dotMult alpha a b r := combinesFirst_bind _ _ a b
  dotMultInverse2nd alpha a b r := combinesFirst_bind _ _ a b
  sumScaled alpha0 alpha1 a b := combinesFirst_zipMap _ a b
  no_dimension_error alpha alpha0 alpha1 a b r h := by
    obtain ⟨c, hc, -, -⟩ := zipMap_of_eq (· * ·) h
    obtain ⟨q, hq, -, -⟩ := zipMap_of_eq (· / ·) h
    obtain ⟨s, hs, -, -⟩ := zipMap_of_eq (fun x y => alpha0 * x + alpha1 * y) h
    refine ⟨fun e he => ?_, fun e he => ?_, s, hs⟩
    · rw [Vector.dotMult, hc] at he
      exact repeated_error alpha he
    · rw [Vector.dotMultInverse2nd, hq] at he
      exact repeated_error alpha he

/-- Three copies of `2 (1, 2)` have six entries, the last of them `2 · 2`. -/
theorem repeated_three_copies_of_pair :
    ∃ v, Vector.repeated (2.0 : Float) ⟨#[1.0, 2.0]⟩ 3 = .ok v ∧ v.size = 6 ∧
      v.get 5 = .ok (2.0 * 2.0) := by
  obtain ⟨v, hv, hsize, hget⟩ :=
    ((repeated_constructors Float Float).repeated 2.0 ⟨#[1.0, 2.0]⟩ 3).copies
      (by decide) (by decide) (by decide)
  exact ⟨v, hv, hsize, hget 2 1 2.0 (by decide) rfl⟩

end DualArrays.Proofs.RepeatedVectors
