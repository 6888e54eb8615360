import Mathlib.Data.List.Basic

/-!
# Machines that reply

A component that is called again and again: each call gets a reply and leaves a state for the next
one.  `replies` and `after` are what a whole list of calls gets and leaves.

* `after_invariant` — what every call preserves holds after any list of calls.
* `replies_invariant` — and what the invariant says of a reply holds of each of them.
* `Simulates.replies`, `Simulates.after` — **refinement**: two machines that reply alike from
  related states, and lead to related ones, reply alike to any list of calls.
-/

namespace Mealy

variable {σ σ' ℓ ℓ' ρ ρ' : Type*}

/-- What a list of calls leaves. -/
def after (step : σ → ℓ → ρ × σ) (s : σ) (cs : List ℓ) : σ := cs.foldl (fun s c => (step s c).2) s

/-- What a list of calls gets. -/
def replies (step : σ → ℓ → ρ × σ) : σ → List ℓ → List ρ
  | _, [] => []
  | s, c :: cs => (step s c).1 :: replies step (step s c).2 cs

variable {step : σ → ℓ → ρ × σ} {step' : σ' → ℓ' → ρ' × σ'}

@[simp] lemma after_nil (s : σ) : after step s [] = s := rfl

@[simp] lemma after_cons (s : σ) (c : ℓ) (cs : List ℓ) :
    after step s (c :: cs) = after step (step s c).2 cs := rfl

lemma after_append (s : σ) (cs₁ cs₂ : List ℓ) :
    after step s (cs₁ ++ cs₂) = after step (after step s cs₁) cs₂ := List.foldl_append

lemma after_concat (s : σ) (cs : List ℓ) (c : ℓ) :
    after step s (cs ++ [c]) = (step (after step s cs) c).2 := List.foldl_concat ..

/-- **The invariant rule**, for calls that satisfy `C`. -/
theorem after_invariant {I : σ → Prop} {C : ℓ → Prop}
    (preserves : ∀ s c, C c → I s → I (step s c).2) {s : σ} (hs : I s) {cs : List ℓ}
    (hcs : ∀ c ∈ cs, C c) : I (after step s cs) := by
  induction cs generalizing s with
  | nil => exact hs
  | cons c cs ih =>
      rw [List.forall_mem_cons] at hcs
      exact ih (preserves s c hcs.1 hs) hcs.2

/-- What an invariant says of each reply. -/
theorem replies_invariant {I : σ → Prop} {C : ℓ → Prop} {A : ρ → Prop}
    (preserves : ∀ s c, C c → I s → A (step s c).1 ∧ I (step s c).2) {s : σ} (hs : I s)
    {cs : List ℓ} (hcs : ∀ c ∈ cs, C c) : ∀ r ∈ replies step s cs, A r := by
  induction cs generalizing s with
  | nil => exact List.forall_mem_nil _
  | cons c cs ih =>
      rw [List.forall_mem_cons] at hcs
      obtain ⟨hreply, hnext⟩ := preserves s c hcs.1 hs
      exact List.forall_mem_cons.mpr ⟨hreply, ih hnext hcs.2⟩

/-- `step'` does from `R`-related states what `step` does, on calls that satisfy `C`. -/
def Simulates (step : σ → ℓ → ρ × σ) (step' : σ' → ℓ' → ρ' × σ') (R : σ → σ' → Prop) (C : ℓ → Prop)
    (call : ℓ → ℓ') (reply : ρ → ρ') : Prop :=
  ∀ s s' c, C c → R s s' →
    (step' s' (call c)).1 = reply (step s c).1 ∧ R (step s c).2 (step' s' (call c)).2

section

variable {R : σ → σ' → Prop} {C : ℓ → Prop} {call : ℓ → ℓ'} {reply : ρ → ρ'}

theorem Simulates.after (h : Simulates step step' R C call reply) {s : σ} {s' : σ'} (hs : R s s')
    {cs : List ℓ} (hcs : ∀ c ∈ cs, C c) :
    R (Mealy.after step s cs) (Mealy.after step' s' (cs.map call)) := by
  induction cs generalizing s s' with
  | nil => exact hs
  | cons c cs ih =>
      rw [List.forall_mem_cons] at hcs
      exact ih (h s s' c hcs.1 hs).2 hcs.2

theorem Simulates.replies (h : Simulates step step' R C call reply) {s : σ} {s' : σ'} (hs : R s s')
    {cs : List ℓ} (hcs : ∀ c ∈ cs, C c) :
    Mealy.replies step' s' (cs.map call) = (Mealy.replies step s cs).map reply := by
  induction cs generalizing s s' with
  | nil => rfl
  | cons c cs ih =>
      rw [List.forall_mem_cons] at hcs
      obtain ⟨hreply, hnext⟩ := h s s' c hcs.1 hs
      simp only [List.map_cons, Mealy.replies, hreply, ih hnext hcs.2]

end

end Mealy
