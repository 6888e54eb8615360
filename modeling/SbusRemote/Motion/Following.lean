import Mathlib.Data.List.Induction
import Mathlib.Data.List.MinMax
import Mathlib.Order.Interval.Set.UnorderedInterval
import SbusRemote.Control.MainLoop

/-!
# How the filter follows the stick

Any sequence of calls of `nonlinearFunction` on its four axes, from the zeroed static array.

* `ot_mainLoop` — in every run of the main loop the static array is such a state.
* `filter_follows` — each call moves its own axis toward the input and never past it, so the output
  stays among zero and the inputs seen, and a held input is approached geometrically.
* `filter_monotone_iff` — a larger input gives a larger output, except across zero.  An input short
  of the output on its own side is followed with the gain of a return to the centre, one on the
  other side, although it asks for more than that return, with the gain of an increase
  (`harder_is_slower`).
-/

namespace SbusRemote

open ByteLine Lts

/-- The static array after a sequence of calls, each an input and an axis. -/
def filterState (cs : List (ℚ × Fin 4)) : Fin 4 → ℚ :=
  cs.foldl (fun ot c => (nonlinearFunction ot c.1 c.2).2) fun _ => 0

lemma filterState_append (cs : List (ℚ × Fin 4)) (c : ℚ × Fin 4) :
    filterState (cs ++ [c])
      = Function.update (filterState cs) c.2 (filterStep (filterState cs c.2) c.1) := by
  simp [filterState, List.foldl_append]

/-- The inputs of the calls on one axis. -/
def inputsOn (i : Fin 4) (cs : List (ℚ × Fin 4)) : List ℚ :=
  (cs.filter (·.2 = i)).map Prod.fst

/-! ## The calls of the main loop -/

/-- The four calls of a pass that works on the vector `v`. -/
def passCalls (v : Channels) : List (ℚ × Fin 4) :=
  [(sticks v 0, 0), (sticks v 1, 1), (sticks v 2, 2), (sticks v 3, 3)]

/-- The four calls write four different entries. -/
lemma foldl_passCalls (ot : Fin 4 → ℚ) (v : Channels) :
    (passCalls v).foldl (fun ot c => (nonlinearFunction ot c.1 c.2).2) ot
      = fun i => filterStep (ot i) (sticks v i) := by
  funext i
  simp only [passCalls, List.foldl_cons, List.foldl_nil, nonlinearFunction_snd]
  fin_cases i <;> simp [Function.update]

section MainLoop

variable {δ : Type} {D : Device δ}

/-- The vectors the passes of a run work on. -/
def passVectors : System δ → List (Label × System δ) → List Channels
  | _, [] => []
  | s, (l, t) :: r => l.rx.getD s.rc.cmd.ch :: passVectors t r

lemma ot_final {s : System δ} {r : List (Label × System δ)} (hr : IsRun (Pass D) s r) :
    (final s r).rc.ot = ((passVectors s r).flatMap passCalls).foldl
      (fun ot c => (nonlinearFunction ot c.1 c.2).2) s.rc.ot := by
  induction r generalizing s with
  | nil => rfl
  | cons e r ih =>
      obtain ⟨l, t⟩ := e
      have hot : t.rc.ot = fun i => filterStep (s.rc.ot i) (sticks (l.rx.getD s.rc.cmd.ch) i) := by
        funext i
        rw [Pass.rc hr.1, react_ot]
      rw [final_cons, ih hr.2, passVectors, List.flatMap_cons, List.foldl_append, foldl_passCalls,
        hot]

/-- In every run of the main loop from a fresh handle the static array is the state after the four
calls of each pass. -/
theorem ot_mainLoop {m : Memory} {dev : δ} {r : List (Label × System δ)}
    (hr : IsRun (Pass D) (System.init m dev) r) : (final (System.init m dev) r).rc.ot
      = filterState ((passVectors (System.init m dev) r).flatMap passCalls) :=
  ot_final hr

end MainLoop

/-! ## One call -/

/-- The output `o` has the sign of `x` and is larger in magnitude. -/
def Beyond (o x : ℚ) : Prop := 0 < o * x ∧ |x| < |o|

instance beyond_decidable (o x : ℚ) : Decidable (Beyond o x) := inferInstanceAs (Decidable (_ ∧ _))

/-- The guard of the return branch says that the output is beyond the input. -/
lemma beyond_iff (o x : ℚ) : Beyond o x ↔ (x > 0 ∧ x < o) ∨ (x < 0 ∧ x > o) := by
  unfold Beyond
  constructor
  · rintro ⟨hsign, habs⟩
    rcases pos_and_pos_or_neg_and_neg_of_mul_pos hsign with ⟨ho, hx⟩ | ⟨ho, hx⟩
    · rw [abs_of_pos hx, abs_of_pos ho] at habs
      exact Or.inl ⟨hx, habs⟩
    · rw [abs_of_neg hx, abs_of_neg ho] at habs
      exact Or.inr ⟨hx, by linarith⟩
  · rintro (⟨hx, ho⟩ | ⟨hx, ho⟩)
    · have ho' : 0 < o := lt_trans hx ho
      rw [abs_of_pos hx, abs_of_pos ho']
      exact ⟨mul_pos ho' hx, ho⟩
    · have ho' : o < 0 := lt_trans ho hx
      rw [abs_of_neg hx, abs_of_neg ho']
      exact ⟨mul_pos_of_neg_of_neg ho' hx, by linarith⟩

/-- What a call of `nonlinearFunction` on axis `i` does with the static array `ot`. -/
structure OneCall (ot : Fin 4 → ℚ) (x : ℚ) (i : Fin 4) : Prop where
  output : (nonlinearFunction ot x i).1 = (nonlinearFunction ot x i).2 i
  others : ∀ j ≠ i, (nonlinearFunction ot x i).2 j = ot j
  reset : x = 0 → (nonlinearFunction ot x i).1 = 0
  between : x ≠ 0 → (nonlinearFunction ot x i).1 ∈ Set.uIcc (ot i) x
  rate : x ≠ 0 → |(nonlinearFunction ot x i).1 - x|
    = (if Beyond (ot i) x then 9 / 10 else 49 / 50) * |ot i - x|

lemma oneCall (ot : Fin 4 → ℚ) (x : ℚ) (i : Fin 4) : OneCall ot x i := by
  constructor
  · simp
  · rintro j hj
    simp [hj]
  · rintro rfl
    simp
  · intro hx
    rw [nonlinearFunction_fst]
    have hsub := filterStep_sub hx (ot i)
    rcases le_total (ot i) x with h | h
    · rw [Set.uIcc_of_le h]
      split_ifs at hsub <;> constructor <;> linarith
    · rw [Set.uIcc_of_ge h]
      split_ifs at hsub <;> constructor <;> linarith
  · intro hx
    rw [nonlinearFunction_fst, filterStep_sub hx, abs_mul]
    simp only [beyond_iff]
    split_ifs <;> norm_num [abs_of_pos]

/-! ## Sequences of calls -/

lemma inputsOn_append (i : Fin 4) (cs : List (ℚ × Fin 4)) (c : ℚ × Fin 4) :
    inputsOn i (cs ++ [c]) = inputsOn i cs ++ if c.2 = i then [c.1] else [] := by
  simp only [inputsOn, List.filter_append, List.map_append]
  split_ifs with hc <;> simp [hc]

/-- One more call, seen from axis `i`. -/
lemma filterState_append_apply (cs : List (ℚ × Fin 4)) (c : ℚ × Fin 4) (i : Fin 4) :
    filterState (cs ++ [c]) i
      = if c.2 = i then filterStep (filterState cs i) c.1 else filterState cs i := by
  rw [filterState_append, Function.update_apply]
  by_cases hc : c.2 = i
  · simp [hc]
  · simp [hc, Ne.symm hc]

/-- An interval around zero that holds the inputs holds the outputs. -/
lemma filterState_mem_Icc {lo hi : ℚ} (h0 : (0 : ℚ) ∈ Set.Icc lo hi) (i : Fin 4)
    (cs : List (ℚ × Fin 4)) (hcs : ∀ x ∈ inputsOn i cs, x ∈ Set.Icc lo hi) :
    filterState cs i ∈ Set.Icc lo hi := by
  induction cs using List.reverseRecOn with
  | nil => simpa [filterState] using h0
  | append_singleton cs c ih =>
      rw [inputsOn_append, List.forall_mem_append] at hcs
      rw [filterState_append_apply]
      split_ifs with hc
      · exact filterStep_mem_Icc h0 (ih hcs.1) (hcs.2 c.1 (by simp [hc]))
      · exact ih hcs.1

/-- Calls with one input, with calls on the other axes between them, iterate the step. -/
lemma filterState_held (cs : List (ℚ × Fin 4)) (x : ℚ) (i : Fin 4) (ds : List (ℚ × Fin 4))
    (hds : ∀ y ∈ inputsOn i ds, y = x) : filterState (cs ++ ds) i
      = (fun o => filterStep o x)^[(inputsOn i ds).length] (filterState cs i) := by
  induction ds using List.reverseRecOn with
  | nil => simp [inputsOn]
  | append_singleton ds c ih =>
      rw [inputsOn_append, List.forall_mem_append] at hds
      rw [← List.append_assoc, filterState_append_apply, inputsOn_append, ih hds.1]
      split_ifs with hc
      · have hcx : c.1 = x := hds.2 c.1 (by simp [hc])
        rw [List.length_append, List.length_singleton, Function.iterate_succ_apply', hcx]
      · rw [List.append_nil]

/-- A held input is approached by a fiftieth of the distance with each call. -/
lemma filterState_approaches (cs : List (ℚ × Fin 4)) (x : ℚ) (i : Fin 4) (ds : List (ℚ × Fin 4))
    (hds : ∀ y ∈ inputsOn i ds, y = x) : |filterState (cs ++ ds) i - x|
      ≤ (49 / 50) ^ (inputsOn i ds).length * |filterState cs i - x| := by
  rw [filterState_held cs x i ds hds]
  exact abs_iterate_filterStep_sub_le x _ _

lemma le_foldr_max {α : Type*} [LinearOrder α] (a : α) (l : List α) : a ≤ l.foldr max a := by
  induction l with
  | nil => exact le_refl a
  | cons y l ih => exact le_max_of_le_right ih

lemma foldr_min_le {α : Type*} [LinearOrder α] (a : α) (l : List α) : l.foldr min a ≤ a :=
  le_foldr_max (α := αᵒᵈ) a l

/-- **The filter follows the stick.**  Over any interleaved sequence of calls on the four axes from
the zero state: a call changes its own axis only, returns zero for zero, and else a value between
the last output and the input, at nine tenths of the distance if the last output was beyond the
input and at forty-nine fiftieths otherwise; so every output lies among zero and the inputs of its
axis, and `n` calls with one input leave at most `(49/50)^n` of the distance to it. -/
theorem filter_follows :
    (∀ cs x i, OneCall (filterState cs) x i) ∧
    (∀ cs i, filterState cs i
      ∈ Set.Icc ((inputsOn i cs).foldr min 0) ((inputsOn i cs).foldr max 0)) ∧
    ∀ cs ds x i, (∀ y ∈ inputsOn i ds, y = x) → |filterState (cs ++ ds) i - x|
      ≤ (49 / 50) ^ (inputsOn i ds).length * |filterState cs i - x| := by
  refine ⟨fun cs x i => oneCall _ x i, ?_, fun cs ds x i => filterState_approaches cs x i ds⟩
  intro cs i
  refine filterState_mem_Icc ⟨foldr_min_le 0 _, le_foldr_max 0 _⟩ i cs fun x hx => ?_
  exact ⟨List.min_le_of_le' 0 hx (le_refl x), List.le_max_of_le' 0 hx (le_refl x)⟩

/-! ## Two inputs from one state -/

/-- The inputs `x` and `y` lie on either side of zero, the output `o` is beyond the one of its own
sign, and less than five times as far from the other as from this one. -/
def Crosses (o x y : ℚ) : Prop :=
  x < 0 ∧ 0 < y ∧ ((y < o ∧ o - x < 5 * (o - y)) ∨ (o < x ∧ y - o < 5 * (x - o)))

/-- **Monotonicity.**  From any state the filter can reach, the smaller of two inputs that are not
zero gives no larger output, if and only if they do not cross. -/
theorem filter_monotone_iff (cs : List (ℚ × Fin 4)) (i : Fin 4) (x y : ℚ) (hx : x ≠ 0)
    (hy : y ≠ 0) (hxy : x < y) :
    (nonlinearFunction (filterState cs) x i).1 ≤ (nonlinearFunction (filterState cs) y i).1 ↔
      ¬Crosses (filterState cs i) x y := by
  rw [nonlinearFunction_fst, nonlinearFunction_fst]
  generalize filterState cs i = o
  have hfx := filterStep_sub hx o
  have hfy := filterStep_sub hy o
  split_ifs at hfx hfy with hX hY hY
  · -- both return
    refine iff_of_true (by linarith) ?_
    rintro ⟨hx0, hy0, h⟩
    rcases hX with hX | hX <;> rcases hY with hY | hY <;> linarith
  · rcases hX with ⟨hx0, hxo⟩ | ⟨hx0, hxo⟩
    · have hyo : o ≤ y := by
        by_contra h
        exact hY (Or.inl ⟨by linarith, by linarith⟩)
      exact iff_of_true (by linarith) fun h => by linarith [h.1]
    · have hy0 : 0 < y := by
        rcases lt_or_gt_of_ne hy with h | h
        · exact absurd (Or.inr ⟨h, by linarith⟩) hY
        · exact h
      constructor
      · rintro hle ⟨-, -, ⟨hyo, -⟩ | ⟨-, hfar⟩⟩ <;> linarith
      · intro hno
        by_contra hlt
        exact hno ⟨hx0, hy0, Or.inr ⟨hxo, by linarith⟩⟩
  · rcases hY with ⟨hy0, hyo⟩ | ⟨hy0, hyo⟩
    · have hx0 : x < 0 := by
        rcases lt_or_gt_of_ne hx with h | h
        · exact h
        · exact absurd (Or.inl ⟨h, by linarith⟩) hX
      constructor
      · rintro hle ⟨-, -, ⟨-, hfar⟩ | ⟨hxo, -⟩⟩ <;> linarith
      · intro hno
        by_contra hlt
        exact hno ⟨hx0, hy0, Or.inl ⟨hyo, by linarith⟩⟩
    · have hxo : x ≤ o := by
        by_contra h
        exact hX (Or.inr ⟨by linarith, by linarith⟩)
      exact iff_of_true (by linarith) fun h => by linarith [h.2.1]
  · -- neither returns
    refine iff_of_true (by linarith) ?_
    rintro ⟨hx0, hy0, ⟨hyo, -⟩ | ⟨hxo, -⟩⟩
    · exact hY (Or.inl ⟨hy0, hyo⟩)
    · exact hX (Or.inr ⟨hx0, hxo⟩)

/-- Two forward inputs after one step forward. -/
theorem filter_monotone_forward :
    (nonlinearFunction (filterState [(1, 0)]) 0.01 0).1
      ≤ (nonlinearFunction (filterState [(1, 0)]) 0.5 0).1 :=
  (filter_monotone_iff [(1, 0)] 0 0.01 0.5 (by decide +kernel) (by decide +kernel)
    (by decide +kernel)).mpr fun h => absurd h.1 (by decide +kernel)

/-- After one step forward to 0.02, the input -0.01 leaves the robot faster than 0.01. -/
theorem harder_is_slower : ¬∀ (cs : List (ℚ × Fin 4)) (i : Fin 4) (x y : ℚ), x ≠ 0 → y ≠ 0 →
    x < y →
    (nonlinearFunction (filterState cs) x i).1 ≤ (nonlinearFunction (filterState cs) y i).1 := by
  intro h
  have hbad := h [(1, 0)] 0 (-0.01) 0.01 (by decide +kernel) (by decide +kernel)
    (by decide +kernel)
  exact absurd hbad (by decide +kernel)

end SbusRemote
