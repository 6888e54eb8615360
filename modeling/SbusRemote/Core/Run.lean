import Mathlib.Data.List.Basic
import Mathlib.Data.List.Destutter
import Mathlib.Data.List.ReduceOption

/-!
# Runs of a labelled transition relation

The vocabulary every statement about "the loop, started here, for any number of passes" uses.
A run is kept as data — the list of labels and the states they lead to — so that a property of
each step of *this* run can be stated next to a property of its last state.

* `IsRun step s r` — `r` is a run of `step` from `s`.  A property of the steps is itself a
  relation, so "every step of `r` satisfies `P`" is `IsRun P s r`.
* `final s r` — the state `r` ends in.
* `IsRun.invariant` — what one step preserves, a whole run preserves; `IsRun.attach` hands each
  step the invariant of the state it starts from.
* `IsRun.lockstep` — the same for a relation between two runs of one length.
* `Since` — some step of the run was of a kind, and what it led to has held ever since;
  `IsRun.iff_since` recognises it from the last state.
* `Verdict`, `IsRun.foldlM` — an abstract machine that refuses exactly the steps that break a
  property.
* `foldl_collapse` — **stuttering**: if reading a value twice is reading it once, a run over
  values and pauses only depends on the sequence of distinct values.
-/

namespace Lts

variable {σ ℓ : Type*}

/-- `r` is a run of `step` from `s`: each entry is a label and the state that step leads to. -/
def IsRun (step : σ → ℓ → σ → Prop) : σ → List (ℓ × σ) → Prop
  | _, [] => True
  | s, (l, t) :: r => step s l t ∧ IsRun step t r

/-- The state a run ends in. -/
def final : σ → List (ℓ × σ) → σ
  | s, [] => s
  | _, (_, t) :: r => final t r

@[simp] lemma isRun_nil (step : σ → ℓ → σ → Prop) (s : σ) : IsRun step s [] := trivial

@[simp] lemma isRun_cons (step : σ → ℓ → σ → Prop) (s t : σ) (l : ℓ) (r : List (ℓ × σ)) :
    IsRun step s ((l, t) :: r) ↔ step s l t ∧ IsRun step t r := Iff.rfl

@[simp] lemma final_nil (s : σ) : final s ([] : List (ℓ × σ)) = s := rfl

@[simp] lemma final_cons (s t : σ) (l : ℓ) (r : List (ℓ × σ)) :
    final s ((l, t) :: r) = final t r := rfl

instance IsRun.decidable {P : σ → ℓ → σ → Prop} [∀ s l t, Decidable (P s l t)] :
    ∀ (s : σ) (r : List (ℓ × σ)), Decidable (IsRun P s r)
  | _, [] => isTrue trivial
  | s, (l, t) :: r =>
      have := IsRun.decidable (P := P) t r
      inferInstanceAs (Decidable (P s l t ∧ IsRun P t r))

lemma final_append (s : σ) (r₁ r₂ : List (ℓ × σ)) :
    final s (r₁ ++ r₂) = final (final s r₁) r₂ := by
  induction r₁ generalizing s with
  | nil => rfl
  | cons e r ih => exact ih e.2

lemma isRun_append {step : σ → ℓ → σ → Prop} {s : σ} {r₁ r₂ : List (ℓ × σ)} :
    IsRun step s (r₁ ++ r₂) ↔ IsRun step s r₁ ∧ IsRun step (final s r₁) r₂ := by
  induction r₁ generalizing s with
  | nil => simp
  | cons e r ih =>
      obtain ⟨l, t⟩ := e
      simp only [List.cons_append, isRun_cons, final_cons, ih, and_assoc]

/-- A weaker step relation has more runs. -/
theorem IsRun.mono {step step' : σ → ℓ → σ → Prop} (h : ∀ s l t, step s l t → step' s l t)
    {s : σ} {r : List (ℓ × σ)} (hr : IsRun step s r) : IsRun step' s r := by
  induction r generalizing s with
  | nil => trivial
  | cons e r ih =>
      obtain ⟨l, t⟩ := e
      exact ⟨h _ _ _ hr.1, ih hr.2⟩

/-- What every step says of its label and the state it leads to holds of each entry of a run. -/
lemma IsRun.forall_mem {step : σ → ℓ → σ → Prop} {Q : ℓ → σ → Prop}
    (h : ∀ s l t, step s l t → Q l t) {s : σ} {r : List (ℓ × σ)} (hr : IsRun step s r) :
    ∀ e ∈ r, Q e.1 e.2 := by
  induction r generalizing s with
  | nil => simp
  | cons e r ih =>
      rw [List.forall_mem_cons]
      exact ⟨h _ _ _ hr.1, ih hr.2⟩

/-- Two properties of the steps of one run hold together. -/
theorem IsRun.and {step step' : σ → ℓ → σ → Prop} {s : σ} {r : List (ℓ × σ)}
    (h : IsRun step s r) (h' : IsRun step' s r) :
    IsRun (fun a l b => step a l b ∧ step' a l b) s r := by
  induction r generalizing s with
  | nil => trivial
  | cons e r ih =>
      obtain ⟨l, t⟩ := e
      exact ⟨⟨h.1, h'.1⟩, ih h.2 h'.2⟩

/-- **The invariant rule.**  What every step preserves holds in the last state of every run. -/
theorem IsRun.invariant {step : σ → ℓ → σ → Prop} {I : σ → Prop}
    (preserves : ∀ s l t, step s l t → I s → I t) {s : σ} {r : List (ℓ × σ)}
    (hr : IsRun step s r) (hs : I s) : I (final s r) := by
  induction r generalizing s with
  | nil => exact hs
  | cons e r ih =>
      obtain ⟨l, t⟩ := e
      exact ih hr.2 (preserves _ _ _ hr.1 hs)

/-- An invariant of the run is available at each of its steps. -/
theorem IsRun.attach {step : σ → ℓ → σ → Prop} {I : σ → Prop}
    (preserves : ∀ s l t, step s l t → I s → I t) {s : σ} {r : List (ℓ × σ)}
    (hr : IsRun step s r) (hs : I s) : IsRun (fun a l b => step a l b ∧ I a) s r := by
  induction r generalizing s with
  | nil => trivial
  | cons e r ih =>
      obtain ⟨l, t⟩ := e
      exact ⟨⟨hr.1, hs⟩, ih hr.2 (preserves _ _ _ hr.1 hs)⟩

/-- Two properties of the steps agree along a run as soon as they agree on each step it can
take. -/
theorem IsRun.congr {step P Q : σ → ℓ → σ → Prop} (h : ∀ s l t, step s l t → (P s l t ↔ Q s l t))
    {s : σ} {r : List (ℓ × σ)} (hr : IsRun step s r) : IsRun P s r ↔ IsRun Q s r := by
  induction r generalizing s with
  | nil => simp
  | cons e r ih =>
      obtain ⟨l, t⟩ := e
      simp only [isRun_cons, h _ _ _ hr.1, ih hr.2]

/-- **Agreement up to the first break.**  If on each step from a good state `P` and `Q` agree, and
a step that satisfies `P` leads to a good state, then they agree along a run. -/
theorem IsRun.iff_of_good {step P Q : σ → ℓ → σ → Prop} {I : σ → Prop}
    (h : ∀ s l t, step s l t → I s → (P s l t ↔ Q s l t))
    (good : ∀ s l t, step s l t → I s → P s l t → I t) {s : σ} {r : List (ℓ × σ)}
    (hr : IsRun step s r) (hs : I s) : IsRun P s r ↔ IsRun Q s r := by
  induction r generalizing s with
  | nil => simp
  | cons e r ih =>
      obtain ⟨l, t⟩ := e
      rw [isRun_cons, isRun_cons, ← h s l t hr.1 hs]
      exact and_congr_right fun hP => ih hr.2 (good s l t hr.1 hs hP)

/-- **Two runs in lockstep.**  A relation that any two steps from related states preserve holds
between the last states of two runs of one length. -/
theorem IsRun.lockstep {σ' ℓ' : Type*} {step : σ → ℓ → σ → Prop} {step' : σ' → ℓ' → σ' → Prop}
    {R : σ → σ' → Prop}
    (preserves : ∀ s l t s' l' t', step s l t → step' s' l' t' → R s s' → R t t') {s : σ} {s' : σ'}
    {r : List (ℓ × σ)} {r' : List (ℓ' × σ')} (hr : IsRun step s r) (hr' : IsRun step' s' r')
    (hlen : r.length = r'.length) (hs : R s s') : R (final s r) (final s' r') := by
  induction r generalizing s s' r' with
  | nil =>
      rw [List.length_nil] at hlen
      obtain rfl := List.length_eq_zero_iff.mp hlen.symm
      exact hs
  | cons e r ih =>
      cases r' with
      | nil => exact absurd hlen (by simp)
      | cons e' r' =>
          obtain ⟨l, t⟩ := e
          obtain ⟨l', t'⟩ := e'
          rw [final_cons, final_cons]
          exact ih hr.2 hr'.2 (Nat.succ.inj hlen) (preserves _ _ _ _ _ _ hr.1 hr'.1 hs)

/-- Along a function that maps each step to a step of a deterministic machine, the last state is
that machine's fold over the labels. -/
theorem IsRun.final_eq_foldl {τ : Type*} {step : σ → ℓ → σ → Prop} {f : σ → τ} {next : τ → ℓ → τ}
    (h : ∀ s l t, step s l t → f t = next (f s) l) {s : σ} {r : List (ℓ × σ)}
    (hr : IsRun step s r) : f (final s r) = (r.map Prod.fst).foldl next (f s) := by
  induction r generalizing s with
  | nil => rfl
  | cons e r ih =>
      obtain ⟨l, t⟩ := e
      rw [final_cons, ih hr.2, h _ _ _ hr.1]
      rfl

/-! ## Since -/

/-- Some step of the run satisfied `P`, and every state after it satisfied `H`. -/
def Since (P : σ → ℓ → σ → Prop) (H : σ → Prop) (s : σ) (r : List (ℓ × σ)) : Prop :=
  ∃ r₁ l t r₂, r = r₁ ++ (l, t) :: r₂ ∧ P (final s r₁) l t ∧ ∀ e ∈ r₂, H e.2

lemma not_since_nil (P : σ → ℓ → σ → Prop) (H : σ → Prop) (s : σ) :
    ¬Since P H s ([] : List (ℓ × σ)) := by
  rintro ⟨r₁, l, t, r₂, h, -⟩
  exact absurd h (by simp)

/-- The last step was of the kind, or an earlier one was and `H` has survived the last. -/
lemma since_concat {P : σ → ℓ → σ → Prop} {H : σ → Prop} {s t : σ} {l : ℓ} {r : List (ℓ × σ)} :
    Since P H s (r ++ [(l, t)]) ↔ P (final s r) l t ∨ Since P H s r ∧ H t := by
  constructor
  · rintro ⟨r₁, l', t', r₂, h, hP, hH⟩
    rcases List.eq_nil_or_concat r₂ with rfl | ⟨r₂, e, rfl⟩
    · obtain ⟨rfl, heq⟩ := List.append_inj' h rfl
      rw [List.cons.injEq, Prod.mk.injEq] at heq
      exact Or.inl (heq.1.1 ▸ heq.1.2 ▸ hP)
    · rw [List.concat_eq_append] at h hH
      rw [← List.cons_append, ← List.append_assoc] at h
      obtain ⟨rfl, heq⟩ := List.append_inj' h rfl
      obtain rfl := List.singleton_inj.mp heq
      rw [List.forall_mem_append, List.forall_mem_singleton] at hH
      exact Or.inr ⟨⟨r₁, l', t', r₂, rfl, hP, hH.1⟩, hH.2⟩
  · rintro (hP | ⟨⟨r₁, l', t', r₂, rfl, hP, hH⟩, ht⟩)
    · exact ⟨r, l, t, [], rfl, hP, by simp⟩
    · refine ⟨r₁, l', t', r₂ ++ [(l, t)], by simp, hP, ?_⟩
      rw [List.forall_mem_append, List.forall_mem_singleton]
      exact ⟨hH, ht⟩

/-- **The since rule.**  A property that begins with the steps in `P`, and that a step keeps exactly
if it keeps `H`, holds in the last state of a run from a state without it exactly if `P` happened
and `H` has held since. -/
theorem IsRun.iff_since {step P : σ → ℓ → σ → Prop} {H B : σ → Prop}
    (h : ∀ s l t, step s l t → (B t ↔ P s l t ∨ B s ∧ H t)) {s : σ} {r : List (ℓ × σ)}
    (hr : IsRun step s r) (hs : ¬B s) : B (final s r) ↔ Since P H s r := by
  induction r using List.reverseRecOn with
  | nil => exact iff_of_false hs (not_since_nil P H s)
  | append_singleton r e ih =>
      obtain ⟨l, t⟩ := e
      obtain ⟨hr, hstep, -⟩ := isRun_append.mp hr
      rw [final_append, since_concat, ← ih hr]
      exact h _ l t hstep

/-! ## Abstract machines -/

/-- What an abstract machine says of a property `P` of the code: a refusal that it fails, an answer
that it holds and that the answer stands for what comes next. -/
def Verdict {α : Type*} (P : Prop) (R : α → Prop) : Option α → Prop
  | none => ¬P
  | some b => P ∧ R b

/-- **An abstract machine with a verdict.**  `next` refuses exactly the labels of steps that break
`P` and follows the others.  Then it reads the labels of a run to the end exactly if every step
satisfies `P`, and ends in what stands for the last state. -/
theorem IsRun.foldlM {α : Type*} {step P : σ → ℓ → σ → Prop} {next : α → ℓ → Option α}
    {R : σ → α → Prop}
    (follows : ∀ s l t a, step s l t → R s a → Verdict (P s l t) (R t) (next a l))
    {s : σ} {r : List (ℓ × σ)} (hr : IsRun step s r) {a : α} (hs : R s a) :
    Verdict (IsRun P s r) (R (final s r)) ((r.map Prod.fst).foldlM next a) := by
  induction r generalizing s a with
  | nil => exact ⟨trivial, hs⟩
  | cons e r ih =>
      obtain ⟨l, t⟩ := e
      have hl := follows s l t a hr.1 hs
      rw [List.map_cons, List.foldlM_cons]
      cases hnext : next a l with
      | none =>
          rw [hnext] at hl
          exact fun hP => hl hP.1
      | some b =>
          rw [hnext] at hl
          have hP : IsRun P s ((l, t) :: r) ↔ IsRun P t r := and_iff_right hl.1
          rw [hP]
          exact ih hr.2 hl.2

/-! ## Stuttering

A machine that reads a value or pauses.  On a pause it reads again the value it holds. -/

section Stutter

variable {W V : Type*} [DecidableEq V] {read : W → V → W} {held : W → V}

/-- Collapsing a list that starts with `v` leaves it starting with `v`. -/
lemma destutter_eq_cons (v : V) : ∀ vs : List V,
    ∃ t, (v :: vs).destutter (· ≠ ·) = v :: t
  | [] => ⟨[], rfl⟩
  | u :: vs => by
      rw [List.destutter_cons_cons]
      split_ifs with h
      · exact ⟨_, rfl⟩
      · rw [← List.destutter_cons']
        exact destutter_eq_cons v vs

/-- Reading a list of values and pauses collapses to reading the distinct values, provided that
reading a value makes it the held one and that reading the held value again changes nothing. -/
theorem foldl_collapse (hheld : ∀ w v, held (read w v) = v)
    (hagain : ∀ w v, read (read w v) v = read w v) :
    ∀ (os : List (Option V)) (w : W), read w (held w) = w →
      os.foldl (fun w o => read w (o.getD (held w))) w
        = ((held w :: os.reduceOption).destutter (· ≠ ·)).foldl read w
  | [], w, hw => by simp [List.reduceOption, hw]
  | none :: os, w, hw => by
      rw [List.reduceOption_cons_of_none, ← foldl_collapse hheld hagain os w hw, List.foldl_cons,
        Option.getD_none, hw]
  | some v :: os, w, hw => by
      have ih := foldl_collapse hheld hagain os (read w v) (by rw [hheld, hagain])
      obtain ⟨t, ht⟩ := destutter_eq_cons v os.reduceOption
      rw [hheld, ht, List.foldl_cons, hagain] at ih
      rw [List.foldl_cons, Option.getD_some, ih, List.reduceOption_cons_of_some,
        List.destutter_cons_cons]
      by_cases hv : held w = v
      · rw [if_neg (not_not.mpr hv), ← List.destutter_cons', hv, ht, List.foldl_cons]
      · rw [if_pos hv, ← List.destutter_cons', ht, List.foldl_cons, List.foldl_cons, hw]

end Stutter

end Lts
