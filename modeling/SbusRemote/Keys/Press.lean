import SbusRemote.Keys.Calls

/-!
# Presses of a button

A button channel is down above 1060.  `channel_command` sets the key of a button when the channel
is down and its value differs from the last vector's, meaning to report a press once.  But it
compares the values and not the two sides of the threshold, so within a press every change of the
value is reported again; with `A` and `L2` the robot stands up and lies down
(`press_stands_up_and_lies_down`).

* `IsPress` — a press: a maximal block of vectors with the channel down.
* `countP_flag` — the key is set as often as the value changes, counted from the vector before
  the press.
* `one_event_iff` — each press is reported at most once exactly if each keeps one value
  throughout.  Only a press that the first vector is in the middle of may still change once.
-/

namespace SbusRemote

open Lts

/-! ## Changes of a value -/

section Changes

variable {α : Type*} [DecidableEq α]

/-- How often two neighbours of a list differ. -/
def changes : List α → ℕ
  | [] => 0
  | [_] => 0
  | x :: y :: l => (if x = y then 0 else 1) + changes (y :: l)

@[simp] lemma changes_nil : changes ([] : List α) = 0 := rfl

@[simp] lemma changes_singleton (x : α) : changes [x] = 0 := rfl

@[simp] lemma changes_cons_cons (x y : α) (l : List α) :
    changes (x :: y :: l) = (if x = y then 0 else 1) + changes (y :: l) := rfl

/-- Nothing changes in a list of one value. -/
lemma changes_cons_eq_zero (x : α) (l : List α) :
    changes (x :: l) = 0 ↔ ∀ y ∈ l, y = x := by
  induction l generalizing x with
  | nil => simp
  | cons y l ih =>
      rw [changes_cons_cons, Nat.add_eq_zero_iff, ih, List.forall_mem_cons]
      by_cases hxy : x = y
      · simp [hxy]
      · simp [hxy, Ne.symm hxy]

lemma changes_eq_zero (l : List α) : changes l = 0 ↔ ∀ x ∈ l, ∀ y ∈ l, x = y := by
  cases l with
  | nil => simp
  | cons x l =>
      rw [changes_cons_eq_zero]
      constructor
      · intro h u hu v hv
        have all : ∀ w ∈ x :: l, w = x := by simpa using h
        rw [all u hu, all v hv]
      · intro h y hy
        exact h y (List.mem_cons_of_mem _ hy) x List.mem_cons_self

/-- One more value in front is at most one more change. -/
lemma changes_cons_le (x : α) (l : List α) : changes (x :: l) ≤ 1 + changes l := by
  cases l with
  | nil => simp
  | cons y l =>
      rw [changes_cons_cons]
      split_ifs <;> omega

end Changes

/-! ## Presses -/

/-- The button channels and their keys. -/
def buttons : List (Fin 16 × (Key → Bool)) := [(7, Key.a), (8, Key.b), (9, Key.c), (10, Key.d)]

/-- `press` is a maximal block of vectors with channel `i` down. -/
structure IsPress (i : Fin 16) (before press after : List Channels) : Prop where
  down : ∀ v ∈ press, 1060 < (v i).toNat
  starts : ∀ v ∈ before.getLast?, (v i).toNat ≤ 1060
  ends : ∀ v ∈ after.head?, (v i).toNat ≤ 1060

/-- The command stands the robot up or lays it down. -/
def isStanceCommand (c : UserCommand) : Bool := c = .l2A1 || c = .l2A2

/-- In each press of the run the key of the button is set in at most one call, and in each press
of `A` at most one call commands a stance. -/
structure OneEventPerPress (r : List (Channels × CommandState)) : Prop where
  flag : ∀ p ∈ buttons, ∀ before press after, r = before ++ press ++ after →
    IsPress p.1 (before.map Prod.fst) (press.map Prod.fst) (after.map Prod.fst) →
    (press.countP fun e => p.2 e.2.handleCmd.key) ≤ 1
  stance : ∀ before press after, r = before ++ press ++ after →
    IsPress 7 (before.map Prod.fst) (press.map Prod.fst) (after.map Prod.fst) →
    (press.countP fun e => isStanceCommand e.2.userCmd) ≤ 1

/-- After the first vector `v₀`, each press keeps one value throughout.  A press that goes on from
`v₀` changes its value at most once, counted from there. -/
def SteadyPresses (v₀ : Channels) (vs : List Channels) : Prop :=
  ∀ p ∈ buttons, ∀ before press after, vs = before ++ press ++ after →
    IsPress p.1 before press after →
    (∀ u ∈ press, ∀ v ∈ press, u p.1 = v p.1) ∨
    (before = [] ∧ 1060 < (v₀ p.1).toNat ∧ changes ((v₀ :: press).map (· p.1)) ≤ 1)

/-! ## How often a press is reported -/

lemma Call.flag {c : UserCommand} {s t : CommandState} {v : Channels} (h : Call c s v t)
    {p : Fin 16 × (Key → Bool)} (hp : p ∈ buttons) :
    p.2 t.handleCmd.key = buttonEdge (s.chBuff p.1) (v p.1) := by
  rw [h.key]
  simp only [buttons, List.mem_cons, List.not_mem_nil, or_false] at hp
  rcases hp with rfl | rfl | rfl | rfl <;> rfl

/-- **Every change is an event.**  While the button is down its key is set as often as the value
of the channel changes. -/
theorem countP_flag {p : Fin 16 × (Key → Bool)} (hp : p ∈ buttons)
    {r : List (Channels × CommandState)} : ∀ {s : CommandState}, IsRun (Call .none) s r →
    (∀ v ∈ r.map Prod.fst, 1060 < (v p.1).toNat) →
    (r.countP fun e => p.2 e.2.handleCmd.key)
      = changes ((s.chBuff :: r.map Prod.fst).map (· p.1)) := by
  induction r with
  | nil => simp
  | cons e r ih =>
      rintro s ⟨hc, hr⟩ hdown
      obtain ⟨v, t⟩ := e
      rw [List.map_cons, List.forall_mem_cons] at hdown
      have hrest := ih hr hdown.2
      rw [hc.chBuff] at hrest
      rw [List.countP_cons, hrest, hc.flag hp]
      simp only [List.map_cons, changes_cons_cons, buttonEdge, hdown.1]
      by_cases hv : s.chBuff p.1 = v p.1
      · simp [hv]
      · simp [hv, Nat.add_comm]

/-- A press after a vector with the button up is reported once for its start and once for each
change; a press that is going on is reported for its changes. -/
lemma countP_flag_le_one {p : Fin 16 × (Key → Bool)} (hp : p ∈ buttons) {s : CommandState}
    {r : List (Channels × CommandState)} (hr : IsRun (Call .none) s r)
    (hdown : ∀ v ∈ r.map Prod.fst, 1060 < (v p.1).toNat) :
    (r.countP fun e => p.2 e.2.handleCmd.key) ≤ 1 ↔
      (∀ u ∈ r.map Prod.fst, ∀ v ∈ r.map Prod.fst, u p.1 = v p.1) ∨
      (1060 < (s.chBuff p.1).toNat ∧
        changes ((s.chBuff :: r.map Prod.fst).map (· p.1)) ≤ 1) := by
  have hconst : (∀ u ∈ r.map Prod.fst, ∀ v ∈ r.map Prod.fst, u p.1 = v p.1) ↔
      changes ((r.map Prod.fst).map (· p.1)) = 0 := by
    rw [changes_eq_zero]
    simp only [List.forall_mem_map]
  have hle := changes_cons_le (s.chBuff p.1) ((r.map Prod.fst).map (· p.1))
  rw [countP_flag hp hr hdown, hconst, List.map_cons]
  constructor
  · intro hone
    by_cases hs : 1060 < (s.chBuff p.1).toNat
    · exact Or.inr ⟨hs, hone⟩
    · -- the first vector of the press differs from the one before
      left
      cases r with
      | nil => simp
      | cons e r =>
          have hfirst := hdown e.1 (by simp)
          have hne : s.chBuff p.1 ≠ e.1 p.1 := by
            intro h
            rw [h] at hs
            exact hs hfirst
          simp only [List.map_cons, changes_cons_cons, if_neg hne] at hone ⊢
          omega
  · rintro (h | h)
    · omega
    · exact h.2

/-- The vector before a press is `v₀`, or one with the button up. -/
lemma chBuff_before {i : Fin 16} {s : CommandState} {before : List (Channels × CommandState)}
    {press after : List Channels} (hr : IsRun (Call .none) s before)
    (hpress : IsPress i (before.map Prod.fst) press after) :
    (before = [] ∧ (final s before).chBuff = s.chBuff) ∨
      (before ≠ [] ∧ ((final s before).chBuff i).toNat ≤ 1060) := by
  rcases List.eq_nil_or_concat before with rfl | ⟨before', e, rfl⟩
  · exact Or.inl ⟨rfl, rfl⟩
  · rw [List.concat_eq_append, isRun_append] at hr
    have hcall : Call .none (final s before') e.1 e.2 := hr.2.1
    have hup := hpress.starts e.1 (by simp)
    refine Or.inr ⟨by simp, ?_⟩
    rw [List.concat_eq_append, final_append, show final (final s before') [e] = e.2 from rfl,
      hcall.chBuff]
    exact hup

/-- A stance is commanded exactly on a stance press. -/
lemma selectCommand_stance (key : Key) (standL : Bool) :
    isStanceCommand (selectCommand key standL .none).1 = stancePress key := by
  unfold selectCommand
  by_cases h : (key.a && key.l2) = true
  · rw [if_pos h, stancePress, h]
    cases standL <;> rfl
  · have hp : stancePress key = false := by simpa [stancePress] using h
    rw [if_neg h, hp]
    split_ifs <;> rfl

/-- So it needs the key of `A`. -/
lemma Call.stance {s t : CommandState} {v : Channels} (h : Call .none s v t)
    (hstance : isStanceCommand t.userCmd = true) : t.handleCmd.key.a = true := by
  rw [h.userCmd, selectCommand_stance, stancePress, Bool.and_eq_true] at hstance
  exact hstance.1

/-- One press of one button, in a run after the first vector `v₀`. -/
lemma press_le_one_iff {c : UserCommand} {s₀ s : CommandState} {v₀ : Channels}
    (h₀ : Call c s₀ v₀ s) {p : Fin 16 × (Key → Bool)} (hp : p ∈ buttons)
    {before press after : List (Channels × CommandState)}
    (hr : IsRun (Call .none) s (before ++ press ++ after))
    (hpress : IsPress p.1 (before.map Prod.fst) (press.map Prod.fst) (after.map Prod.fst)) :
    (press.countP fun e => p.2 e.2.handleCmd.key) ≤ 1 ↔
      (∀ u ∈ press.map Prod.fst, ∀ v ∈ press.map Prod.fst, u p.1 = v p.1) ∨
      (before.map Prod.fst = [] ∧ 1060 < (v₀ p.1).toNat ∧
        changes ((v₀ :: press.map Prod.fst).map (· p.1)) ≤ 1) := by
  rw [isRun_append, isRun_append] at hr
  rw [countP_flag_le_one hp hr.1.2 hpress.down]
  rcases chBuff_before hr.1.1 hpress with ⟨rfl, hbuff⟩ | ⟨hne, hup⟩
  · rw [hbuff, h₀.chBuff]
    simp
  · simp only [not_lt.mpr hup, false_and, List.map_eq_nil_iff, hne]

/-- **One press, one event.**  Over any run of `channel_command` after a first vector, from any
state: each press of a button is reported at most once, and each press of `A` commands at most one
stance, if and only if the presses are steady. -/
theorem one_event_iff (s₀ s : CommandState) (v₀ : Channels) (c : UserCommand)
    (h₀ : Call c s₀ v₀ s) (r : List (Channels × CommandState)) (hr : IsRun (Call .none) s r) :
    OneEventPerPress r ↔ SteadyPresses v₀ (r.map Prod.fst) := by
  constructor
  · rintro ⟨hflag, -⟩ p hp before press after hvs hpress
    obtain ⟨r₁, r₂, rfl, h₁, rfl⟩ := List.map_eq_append_iff.mp hvs
    obtain ⟨r₁, r₃, rfl, rfl, rfl⟩ := List.map_eq_append_iff.mp h₁
    exact (press_le_one_iff h₀ hp hr hpress).mp (hflag p hp _ _ _ rfl hpress)
  · intro hsteady
    have hflag : ∀ p ∈ buttons, ∀ before press after, r = before ++ press ++ after →
        IsPress p.1 (before.map Prod.fst) (press.map Prod.fst) (after.map Prod.fst) →
        (press.countP fun e => p.2 e.2.handleCmd.key) ≤ 1 := by
      rintro p hp before press after rfl hpress
      refine (press_le_one_iff h₀ hp hr hpress).mpr (hsteady p hp _ _ _ ?_ hpress)
      rw [List.map_append, List.map_append]
    refine ⟨hflag, fun before press after hr' hpress => ?_⟩
    -- a press of `A` that is reported once commands at most one stance
    have hstance : ∀ e ∈ press, isStanceCommand e.2.userCmd = true →
        e.2.handleCmd.key.a = true := by
      rw [hr', isRun_append, isRun_append] at hr
      exact hr.1.2.forall_mem (Q := fun _ t => isStanceCommand t.userCmd = true →
        t.handleCmd.key.a = true) fun _ _ _ hc => hc.stance
    exact le_trans (List.countP_mono_left hstance)
      (hflag (7, Key.a) (by simp [buttons]) before press after hr' hpress)

/-- Buttons with one value when down are steady. -/
lemma steady_of_two_positions {v₀ : Channels} {vs : List Channels}
    (h : ∀ v ∈ vs, ∀ p ∈ buttons, (v p.1).toNat ≤ 1060 ∨ v p.1 = 1712) : SteadyPresses v₀ vs := by
  rintro p hp before press after rfl hpress
  have hdown : ∀ v ∈ press, v p.1 = 1712 := by
    intro v hv
    refine (h v (by simp [hv]) p hp).resolve_left ?_
    exact not_le.mpr (hpress.down v hv)
  left
  intro u hu v hv
  rw [hdown u hu, hdown v hv]

/-- `A` pressed with `L2` held, kept down, released and pressed again. -/
theorem one_event_twice_pressed :
    OneEventPerPress (calls [pressed true 7, pressed true 7, centred, pressed true 7]
      (channelCommand { (RControl.init Memory.centred).cmd with ch := centred })) := by
  refine (one_event_iff (RControl.init Memory.centred).cmd _ centred .none rfl _
    (calls_isRun _ _)).mpr (steady_of_two_positions ?_)
  simp [buttons, pressed, centred]

/-- `A` halfway down, with `L2` held. -/
def halfway : Channels := fun i => if i = 7 then 1100 else if i = 4 then 272 else 992

/-- `A` pressed slowly with `L2` held, 1100 and then 1712: the robot stands up at the first value
and lies down at the second. -/
theorem press_stands_up_and_lies_down : ¬∀ (s₀ s : CommandState) (v₀ : Channels) (c : UserCommand),
    Call c s₀ v₀ s → ∀ r, IsRun (Call .none) s r → OneEventPerPress r := by
  intro h
  have hone := (h (RControl.init Memory.centred).cmd _ centred .none rfl _
    (calls_isRun [halfway, pressed true 7] _)).stance [] _ [] (List.append_nil _).symm
    ⟨by simp [halfway, pressed], by simp, by simp⟩
  exact absurd hone (by decide +kernel)

end SbusRemote
