import Mathlib.Data.List.TakeWhile

/-!
# C strings and cursors

`cJSON.c` walks over a C string with a pointer.  A `Text` is what is left between such a pointer
and the terminator, so moving the pointer on is dropping a byte and `*ptr` at the end is 0.  A
pointer that leaves the string behind has no `Text`: the functions that can do that say so, by the
outcome `fault`.

* `CString` — a list of bytes none of which is the terminator.
* `skip` — the jump over white space; `skip_eq_self` says where it stops.
* `Parsed`, `Parsed.bind` — the ways a parse function returns.
-/

namespace SbusRemote.CJson

/-- The bytes from a `const char *` up to the terminator. -/
abbrev Text := List UInt8

/-- `*ptr`. -/
def peek : Text → UInt8
  | [] => 0
  | c :: _ => c

@[simp] lemma peek_nil : peek [] = 0 := rfl

@[simp] lemma peek_cons (c : UInt8) (t : Text) : peek (c :: t) = c := rfl

/-- A byte that is not the terminator is in the text. -/
lemma eq_cons_of_peek {c : UInt8} {t : Text} (h : peek t = c) (hc : c ≠ 0) : t = c :: t.tail := by
  cases t with
  | nil => exact absurd h.symm hc
  | cons x t => exact congrArg (· :: t) h

/-- What holds of every byte of a given text, by evaluation. -/
lemma forall_mem_of_all {α : Type} {p : α → Prop} [DecidablePred p] {t : List α}
    (h : t.all (fun c => decide (p c)) = true) : ∀ c ∈ t, p c := by
  simpa using h

/-- A C string: its bytes before the terminator. -/
def CString := {s : Text // 0 ∉ s}
  deriving DecidableEq

/-- A buffer read as a C string. -/
def CString.ofText (t : Text) : CString :=
  ⟨t.takeWhile (· ≠ 0), fun h => by simpa using List.mem_takeWhile_imp h⟩

lemma CString.ofText_val (s : CString) : CString.ofText s.val = s := by
  refine Subtype.ext (List.takeWhile_eq_self_iff.mpr fun c hc => ?_)
  simpa using fun h : c = 0 => s.property (h ▸ hc)

/-- `INT_MAX`. -/
def intMax : ℕ := 2147483647

/-! ## White space -/

/-- `skip`: `while (in && *in && (unsigned char)*in<=32) in++;`. -/
def skip (value : Text) : Text := value.dropWhile (· ≤ 32)

@[simp] lemma skip_nil : skip [] = [] := rfl

/-- Only white space stands in front of the place `skip` goes to. -/
lemma skip_append {w : Text} (hw : ∀ c ∈ w, c ≤ 32) (t : Text) : skip (w ++ t) = skip t := by
  rw [skip, List.dropWhile_append, List.dropWhile_eq_nil_iff.mpr (by simpa using hw)]
  rfl

/-- `skip` stays at a byte that is not white space. -/
lemma skip_cons {c : UInt8} (h : 32 < c) (t : Text) : skip (c :: t) = c :: t := by
  rw [skip, List.dropWhile_cons_of_neg (by simpa using h)]

/-- What `skip` passes over is white space, and it stops at the end or at something else. -/
lemma exists_skip (t : Text) : ∃ w, (∀ c ∈ w, c ≤ 32) ∧ t = w ++ skip t ∧
    (skip t = [] ∨ 32 < peek (skip t)) := by
  induction t with
  | nil => exact ⟨[], by simp, rfl, .inl rfl⟩
  | cons c t ih =>
      by_cases hc : c ≤ 32
      · obtain ⟨w, hw, ht, hstop⟩ := ih
        have hskip : skip (c :: t) = skip t := by
          rw [skip, List.dropWhile_cons_of_pos (by simpa)]
          rfl
        refine ⟨c :: w, ?_, ?_, by rwa [hskip]⟩
        · exact List.forall_mem_cons.mpr ⟨hc, hw⟩
        · rw [hskip, List.cons_append, ← ht]
      · have hskip := skip_cons (UInt8.not_le.mp hc) t
        exact ⟨[], by simp, by rw [hskip]; rfl, .inr (by rw [hskip]; exact UInt8.not_le.mp hc)⟩

/-! ## Outcomes -/

/-- How a parse function ends. -/
inductive Parsed (α : Type) where
  /-- It returns the cursor `rest`. -/
  | done (value : α) (rest : Text)
  /-- It returns 0 and leaves `ep` there. -/
  | failed (ep : Text)
  /-- It reads past the terminator, writes past an allocation or overflows an `int`. -/
  | fault
  /-- The bound on the recursion was too small. -/
  | outOfFuel
  deriving DecidableEq

namespace Parsed

variable {α β : Type}

/-- `if (!value) return 0;` between two steps. -/
def bind : Parsed α → (α → Text → Parsed β) → Parsed β
  | done a t, f => f a t
  | failed ep, _ => failed ep
  | fault, _ => fault
  | outOfFuel, _ => outOfFuel

@[simp] lemma bind_done (a : α) (t : Text) (f : α → Text → Parsed β) :
    (done a t).bind f = f a t := rfl

@[simp] lemma bind_failed (ep : Text) (f : α → Text → Parsed β) :
    (failed ep : Parsed α).bind f = failed ep := rfl

@[simp] lemma bind_fault (f : α → Text → Parsed β) : (fault : Parsed α).bind f = fault := rfl

/-- A sequence of steps returns exactly if each does. -/
lemma bind_eq_done {x : Parsed α} {f : α → Text → Parsed β} {b : β} {u : Text} :
    x.bind f = done b u ↔ ∃ a t, x = done a t ∧ f a t = done b u := by
  cases x with
  | done a' t' =>
      constructor
      · intro h
        exact ⟨a', t', rfl, h⟩
      · rintro ⟨a, t, h, hf⟩
        cases h
        exact hf
  | _ => simp [bind]

end Parsed

end SbusRemote.CJson
