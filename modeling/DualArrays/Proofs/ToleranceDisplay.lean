import Mathlib
import DualArrays.Display.Multiarray
import DualArrays.Proofs.MatrixEntries
import DualArrays.Proofs.Views

namespace DualArrays.Proofs.ToleranceDisplay

open DualArrays
open DualArrays.Proofs.MultiarrayProducts DualArrays.Proofs.MatrixEntries
open DualArrays.Proofs.Views

section Digits

theorem colIndex_mul_add {e i : Nat} (es : List Nat) (q : Nat) (hi : i < e) :
    colIndex (e :: es) (q * e + i) = i :: colIndex es q := by
  have he : 0 < e := by omega
  rw [colIndex, Nat.add_comm, Nat.add_mul_mod_self_right, Nat.mod_eq_of_lt hi,
    Nat.add_mul_div_right _ _ he, Nat.div_eq_of_lt hi, Nat.zero_add]

theorem colIndex_linear {t es : List Nat} (ht : List.Forall₂ (· < ·) t es) :
    colIndex es (Layout.col.linear es t) = t := by
  induction ht with
  | nil => rfl
  | @cons i e t es hie _ ih => rw [linear_col_cons, colIndex_mul_add es _ hie, ih]

theorem mem_digits_iff {es t : List Nat} :
    t ∈ (List.range es.prod).map (colIndex es) ↔ List.Forall₂ (· < ·) t es := by
  constructor
  · intro h
    obtain ⟨j, hj, rfl⟩ := List.mem_map.mp h
    exact (colIndex_spec (List.mem_range.mp hj)).1
  · intro ht
    exact List.mem_map.mpr ⟨_, List.mem_range.mpr (linear_col_lt ht), colIndex_linear ht⟩

theorem nodup_digits (es : List Nat) : ((List.range es.prod).map (colIndex es)).Nodup := by
  refine List.Nodup.map_on ?_ List.nodup_range
  intro j hj k hk hjk
  rw [← (colIndex_spec (List.mem_range.mp hj)).2, ← (colIndex_spec (List.mem_range.mp hk)).2,
    hjk]

end Digits

section Counter

theorem increment_eq {c tail : List Nat} (hc : List.Forall₂ (· < ·) c tail) :
    increment c tail = if Layout.col.linear tail c + 1 < tail.prod
      then some (colIndex tail (Layout.col.linear tail c + 1)) else none := by
  induction hc with
  | nil => rfl
  | @cons i e t es hie hrest ih =>
    have hlt := linear_col_lt hrest
    rw [linear_col_cons, List.prod_cons]
    by_cases hstep : i + 1 < e
    · have hnext : Layout.col.linear es t * e + i + 1 < e * es.prod := by
        have := Nat.mul_le_mul_right e (Nat.succ_le_of_lt hlt)
        rw [Nat.succ_mul, Nat.mul_comm es.prod] at this
        omega
      rw [increment, if_pos hstep, if_pos hnext, Nat.add_assoc, colIndex_mul_add es _ hstep,
        colIndex_linear hrest]
    · have hcarry : Layout.col.linear es t * e + i + 1 = (Layout.col.linear es t + 1) * e + 0 := by
        rw [Nat.succ_mul]
        omega
      have he : 0 < e := by omega
      have hiff : (Layout.col.linear es t + 1) * e + 0 < e * es.prod ↔
          Layout.col.linear es t + 1 < es.prod := by
        rw [Nat.add_zero, Nat.mul_comm e]
        exact Nat.mul_lt_mul_right he
      rw [increment, if_neg hstep, ih, hcarry, colIndex_mul_add es _ he]
      by_cases hn : Layout.col.linear es t + 1 < es.prod
      · rw [if_pos hn, if_pos (hiff.mpr hn)]
        rfl
      · rw [if_neg hn, if_neg (mt hiff.mp hn)]
        rfl

theorem counterRun_of_increment {tail c next : List Nat} (h : increment c tail = some next) :
    counterRun tail c = c :: counterRun tail next := by
  rw [counterRun]
  split <;> simp_all

theorem counterRun_of_increment_none {tail c : List Nat} (h : increment c tail = none) :
    counterRun tail c = [c] := by
  rw [counterRun]
  split <;> simp_all

theorem counterRun_eq {c tail : List Nat} (hc : List.Forall₂ (· < ·) c tail) :
    counterRun tail c = (List.range (tail.prod - Layout.col.linear tail c)).map
      fun k => colIndex tail (Layout.col.linear tail c + k) := by
  -- induction along the run: each advance moves one offset further
  induction c using counterRun.induct tail with
  | case1 c ih =>
    have hlt := linear_col_lt hc
    by_cases hnext : Layout.col.linear tail c + 1 < tail.prod
    · have hinc : increment c tail = some (colIndex tail (Layout.col.linear tail c + 1)) := by
        rw [increment_eq hc, if_pos hnext]
      obtain ⟨hdigits, hlin⟩ := colIndex_spec hnext
      have hcount : tail.prod - Layout.col.linear tail c =
          tail.prod - (Layout.col.linear tail c + 1) + 1 := by omega
      rw [counterRun_of_increment hinc, ih _ hinc hdigits, hlin, hcount, List.range_succ_eq_map]
      simp only [List.map_cons, List.map_map, Nat.add_zero, colIndex_linear hc, List.cons.injEq,
        true_and]
      apply List.map_congr_left
      intro k _
      simp only [Function.comp, Nat.succ_eq_add_one, Nat.add_assoc, Nat.add_comm 1]
    · have hinc : increment c tail = none := by rw [increment_eq hc, if_neg hnext]
      have hcount : tail.prod - Layout.col.linear tail c = 1 := by omega
      rw [counterRun_of_increment_none hinc, hcount]
      simp [colIndex_linear hc]

theorem forall₂_replicate_zero {tail : List Nat} (hpos : ∀ e ∈ tail, 0 < e) :
    List.Forall₂ (· < ·) (List.replicate tail.length 0) tail := by
  induction tail with
  | nil => exact .nil
  | cons e es ih => exact .cons (hpos e (by simp)) (ih fun x hx => hpos x (by simp [hx]))

theorem linear_col_replicate_zero (tail : List Nat) :
    Layout.col.linear tail (List.replicate tail.length 0) = 0 := by
  induction tail with
  | nil => rfl
  | cons e es ih => rw [List.length_cons, List.replicate_succ, linear_col_cons, ih, Nat.zero_mul]

theorem counterRun_zeros {tail : List Nat} (hpos : ∀ e ∈ tail, 0 < e) :
    counterRun tail (List.replicate tail.length 0) =
      (List.range tail.prod).map (colIndex tail) := by
  rw [counterRun_eq (forall₂_replicate_zero hpos), linear_col_replicate_zero]
  simp

structure VisitsEachTupleOnce (tail : List Nat) (run : List (List Nat)) : Prop where
  column_major : run = (List.range tail.prod).map (colIndex tail)
  length_eq : run.length = tail.prod
  mem_iff : ∀ t, t ∈ run ↔ List.Forall₂ (· < ·) t tail
  count_eq_one : ∀ t, List.Forall₂ (· < ·) t tail → run.count t = 1

theorem visitsEachTupleOnce_digits (tail : List Nat) :
    VisitsEachTupleOnce tail ((List.range tail.prod).map (colIndex tail)) where
  column_major := rfl
  length_eq := by simp
  mem_iff _ := mem_digits_iff
  count_eq_one _ ht := List.count_eq_one_of_mem (nodup_digits tail) (mem_digits_iff.mpr ht)

theorem counterRun_visitsEachTupleOnce {tail : List Nat} (hpos : ∀ e ∈ tail, 0 < e) :
    VisitsEachTupleOnce tail (counterRun tail (List.replicate tail.length 0)) := by
  rw [counterRun_zeros hpos]
  exact visitsEachTupleOnce_digits tail

end Counter

section Reads

theorem linear_single (l : Layout) (n k : Nat) : l.linear [n] [k] = k := by
  cases l <;> simp [Layout.linear, Layout.foldOrder]

variable {α ρ : Type} [Scalar α ρ]

theorem read_eq_of_get {m : Multiarray α} {index : List Nat} {x : α}
    (hin : List.Forall₂ (· < ·) index m.extents) (h : m.get index = .ok x) :
    m.read index = x := by
  rw [multiarray_get_of_lt hin] at h
  exact Except.ok.inj h

end Reads

section Text

variable {α ρ : Type} [RealFloat ρ] [Scalar α ρ]

theorem grid_congr {tol : ρ} {rows cols : Nat} {f g : Nat → Nat → α}
    (h : ∀ i j, i < rows → j < cols → f i j = g i j) :
    Tolerance.grid tol rows cols f = Tolerance.grid tol rows cols g := by
  unfold Tolerance.grid
  congr 1
  apply List.map_congr_left
  intro i hi
  rw [List.map_congr_left fun j hj => h i j (List.mem_range.mp hi) (List.mem_range.mp hj)]

def logicalBody (tol : ρ) (extents : List Nat) (entryAt : List Nat → α) : String :=
  match extents with
  | [n] => Tolerance.line tol ((List.range n).map fun k => entryAt [k])
  | [rows, cols] => Tolerance.grid tol rows cols fun i j => entryAt [i, j]
  | rows :: cols :: tail =>
    if (rows :: cols :: tail).prod = 0 then ""
    else "\n".intercalate (((List.range tail.prod).map (colIndex tail)).map
      (Tolerance.block tol rows cols entryAt))
  | [] => ""

/-- The display of a multiarray written from its extents and logical entries alone. -/
def logicalText (tol : ρ) (extents : List Nat) (entryAt : List Nat → α) : String :=
  Tolerance.extentsHeader extents ++ logicalBody tol extents entryAt ++ "\n"

theorem tolBody_eq_logicalBody {m : Multiarray α} (hm : Shaped m) {entryAt : List Nat → α}
    (hread : ∀ index, List.Forall₂ (· < ·) index m.extents → m.read index = entryAt index)
    (tol : ρ) : m.tolBody tol = logicalBody tol m.extents entryAt := by
  unfold Multiarray.tolBody logicalBody
  match hext : m.extents with
  | [] => rfl
  | [n] =>
    dsimp only
    congr 1
    apply List.map_congr_left
    intro k hk
    have hin : List.Forall₂ (· < ·) [k] m.extents := hext ▸ .cons (List.mem_range.mp hk) .nil
    rw [← hread [k] hin, Multiarray.read, Multiarray.offset, hext, linear_single]
  | [rows, cols] =>
    dsimp only
    exact grid_congr fun i j hi hj => hread _ (hext ▸ .cons hi (.cons hj .nil))
  | rows :: cols :: t :: ts =>
    have hsize : m.size = (rows :: cols :: t :: ts).prod := by
      rw [← hext]
      exact hm.size_eq
    dsimp only
    rw [hsize]
    split_ifs with hzero
    · rfl
    · have hpos : ∀ e ∈ t :: ts, 0 < e := fun e he =>
        Nat.pos_of_ne_zero fun h0 => hzero (List.prod_eq_zero (h0 ▸ by simp [he]))
      rw [counterRun_zeros hpos]
      congr 1
      apply List.map_congr_left
      intro tup htup
      unfold Tolerance.block
      congr 1
      exact grid_congr fun i j hi hj =>
        hread _ (hext ▸ .cons hi (.cons hj (mem_digits_iff.mp htup)))

theorem tolText_eq_logicalText {m : Multiarray α} (hm : Shaped m) (entryAt : List Nat → α)
    (hentry : ∀ index, List.Forall₂ (· < ·) index m.extents →
      m.get index = .ok (entryAt index))
    (tol : ρ) : m.tolText tol = logicalText tol m.extents entryAt := by
  rw [Multiarray.tolText, logicalText,
    tolBody_eq_logicalBody hm (fun index hin => read_eq_of_get hin (hentry index hin))]

theorem tolText_eq_of_get_eq {m m' : Multiarray α} (hm : Shaped m) (hm' : Shaped m')
    (hext : m.extents = m'.extents) (hget : ∀ index, m.get index = m'.get index) (tol : ρ) :
    m.tolText tol = m'.tolText tol := by
  have hentry : ∀ index, List.Forall₂ (· < ·) index m'.extents →
      m'.get index = .ok (m.read index) := by
    intro index hin
    rw [← hget, multiarray_get_of_lt (hext ▸ hin)]
    rfl
  rw [tolText_eq_logicalText hm m.read (fun index hin => multiarray_get_of_lt hin) tol,
    tolText_eq_logicalText hm' m.read hentry tol, hext]

theorem matrix_tolText_eq {a b : Matrix α} (h : SameEntries a b) (tol : ρ) :
    a.tolText tol = b.tolText tol := by
  unfold Matrix.tolText
  rw [← h.rows_eq, ← h.cols_eq]
  exact grid_congr fun i j hi hj => h.read_eq _ i j hi hj

theorem entry_of_modulus_lt {tol : ρ} {x : α} (h : RealFloat.lt (Scalar.modulus x) tol = true) :
    Tolerance.entry tol x = Tolerance.entry tol (Scalar.zero : α) := by
  unfold Tolerance.entry
  simp [h]

end Text

section PlainText

variable {α : Type} [Element α]

theorem append_layout_text_iff (s : String) {l l' : Layout} :
    s ++ l.text ++ ")" = s ++ l'.text ++ ")" ↔ l = l' := by
  constructor
  · intro h
    have hl := congrArg String.toList h
    cases l <;> cases l' <;> simp_all [Layout.text, Layout.toChar]
  · rintro rfl
    rfl

theorem text_eq_iff {a b : Matrix α} (h : SameEntries a b) :
    a.text = b.text ↔ a.layout = b.layout := by
  have hsize : a.size = b.size := by
    rw [Matrix.size, Matrix.size, a.size_eq, b.size_eq, h.rows_eq, h.cols_eq]
  have hrows : ∀ i ∈ List.range a.rows,
      ((List.range a.cols).map fun j => Element.text (a.read Element.dflt i j)) =
        (List.range a.cols).map fun j => Element.text (b.read Element.dflt i j) := by
    intro i hi
    apply List.map_congr_left
    intro j hj
    rw [h.read_eq _ i j (List.mem_range.mp hi) (List.mem_range.mp hj)]
  unfold Matrix.text
  dsimp only
  rw [hsize, ← h.rows_eq, ← h.cols_eq,
    List.map_congr_left fun i hi => congrArg (fun s => "  [" ++ s ++ "]")
      (congrArg (", ".intercalate ·) (hrows i hi))]
  split_ifs <;> exact append_layout_text_iff _

end PlainText

/-- What the tolerance display promises. From all zeros the counter of trailing indices visits
each tuple below positive extents exactly once, in column-major order. A multiarray as its
constructors leave it prints its extents and then its entries by logical index: its text is the
one written from its extents and entries alone, so two with the same extents and entries print
alike whatever their layouts. Matrices with the same entries print alike with a tolerance, and
their plain texts are equal exactly when their layouts are. An entry whose modulus is below the
tolerance prints as zero. -/
structure DisplaysLogicalEntries (α ρ : Type) [RealFloat ρ] [Scalar α ρ] : Prop where
  counter : ∀ tail : List Nat, (∀ e ∈ tail, 0 < e) →
    VisitsEachTupleOnce tail (counterRun tail (List.replicate tail.length 0))
  multiarray : ∀ (m : Multiarray α) (entryAt : List Nat → α) (tol : ρ), Shaped m →
    (∀ index, List.Forall₂ (· < ·) index m.extents → m.get index = .ok (entryAt index)) →
    m.tolText tol = logicalText tol m.extents entryAt
  multiarray_same : ∀ (m m' : Multiarray α) (tol : ρ), Shaped m → Shaped m' →
    m.extents = m'.extents → (∀ index, m.get index = m'.get index) →
    m.tolText tol = m'.tolText tol
  matrix_same : ∀ (a b : Matrix α) (tol : ρ), SameEntries a b → a.tolText tol = b.tolText tol
  matrix_plain : ∀ a b : Matrix α, SameEntries a b → (a.text = b.text ↔ a.layout = b.layout)
  small_entry : ∀ (tol : ρ) (x : α), RealFloat.lt (Scalar.modulus x) tol = true →
    Tolerance.entry tol x = Tolerance.entry tol (Scalar.zero : α)

theorem tolerance_display_reads_logical_entries (α ρ : Type) [RealFloat ρ] [Scalar α ρ] :
    DisplaysLogicalEntries α ρ where
  counter _ := counterRun_visitsEachTupleOnce
  multiarray _ entryAt tol hm hentry := tolText_eq_logicalText hm entryAt hentry tol
  multiarray_same _ _ tol hm hm' hext hget := tolText_eq_of_get_eq hm hm' hext hget tol
  matrix_same _ _ tol h := matrix_tolText_eq h tol
  matrix_plain _ _ := text_eq_iff
  small_entry _ _ := entry_of_modulus_lt

/-- Over trailing extents `2, 2` the counter visits `0,0`, `1,0`, `0,1` and `1,1`, the first
index fastest. -/
theorem counter_visits_two_by_two :
    counterRun [2, 2] [0, 0] = [[0, 0], [1, 0], [0, 1], [1, 1]] := by
  have hrun := ((tolerance_display_reads_logical_entries Float Float).counter [2, 2]
    (by decide)).column_major
  exact hrun.trans (by decide)

end DualArrays.Proofs.ToleranceDisplay
