import Mathlib.Data.Finset.Card
import Mathlib.Data.Finset.Option
import Mathlib.Data.List.Infix

/-!
# Descriptors and their owner

A process is seen through the calls that open and close descriptors, in order.  A number that was
closed may be given out again, so "closed twice" is a matter of the order of the calls and not of
the numbers alone.

* `openAfter` — the descriptors that are open after the calls so far.
* `AtMostOne`, `ClosedTwice` — at no moment are two descriptors open; a descriptor is closed that
  was closed before and not opened since.
* `Owned` — the calls of an owner of one descriptor, which opens only when it holds none and closes
  only the one it holds.  Such an owner has at most one descriptor open (`Owned.atMostOne`) and
  closes none twice (`Owned.not_closedTwice`).
-/

namespace Descriptor

/-- A call that opened or closed a descriptor. -/
inductive Event (δ : Type*) where
  | opened (fd : δ)
  | closed (fd : δ)
  deriving DecidableEq, Repr

variable {δ : Type*}

/-- `fd` is closed, not opened again, and closed. -/
def ClosedTwice (fd : δ) (log : List (Event δ)) : Prop :=
  ∃ past since rest, log = past ++ .closed fd :: (since ++ .closed fd :: rest) ∧
    .opened fd ∉ since

/-- The calls of an owner, with the descriptor it holds after them. -/
inductive Owned : List (Event δ) → Option δ → Prop
  | nil : Owned [] none
  | opened {log : List (Event δ)} (fd : δ) : Owned log none → Owned (log ++ [.opened fd]) (some fd)
  | closed {log : List (Event δ)} {fd : δ} :
      Owned log (some fd) → Owned (log ++ [.closed fd]) none

/-- What an owner holds it opened last. -/
lemma Owned.getLast? {log : List (Event δ)} {fd : δ} (h : Owned log (some fd)) :
    log.getLast? = some (.opened fd) := by
  cases h with
  | opened fd h => exact List.getLast?_concat

/-- A descriptor is first closed twice by a call that closes it. -/
lemma closedTwice_concat {log : List (Event δ)} {e : Event δ} {fd : δ}
    (h : ClosedTwice fd (log ++ [e])) :
    ClosedTwice fd log ∨
      e = .closed fd ∧ ∃ past since, log = past ++ .closed fd :: since ∧ .opened fd ∉ since := by
  obtain ⟨past, since, rest, h, hsince⟩ := h
  rcases List.eq_nil_or_concat rest with rfl | ⟨rest, e', rfl⟩
  · have hlast : log ++ [e] = (past ++ .closed fd :: since) ++ [.closed fd] := by simpa using h
    obtain ⟨hlog, he⟩ := List.append_inj' hlast rfl
    exact .inr ⟨List.head_eq_of_cons_eq he, past, since, hlog, hsince⟩
  · have hlast : log ++ [e] = (past ++ .closed fd :: (since ++ .closed fd :: rest)) ++ [e'] := by
      simpa using h
    exact .inl ⟨past, since, rest, (List.append_inj' hlast rfl).1, hsince⟩

/-- **An owner closes no descriptor twice.** -/
theorem Owned.not_closedTwice {log : List (Event δ)} {o : Option δ} (h : Owned log o) (fd : δ) :
    ¬ClosedTwice fd log := by
  induction h with
  | nil =>
      rintro ⟨past, since, rest, h, -⟩
      simp at h
  | opened fd' _ ih =>
      intro htwice
      rcases closedTwice_concat htwice with htwice | ⟨he, -⟩
      · exact ih htwice
      · cases he
  | closed hlog ih =>
      intro htwice
      rcases closedTwice_concat htwice with htwice | ⟨he, past, since, rfl, hsince⟩
      · exact ih htwice
      · -- the call before this one opened what is closed now
        cases he
        have hlast := hlog.getLast?
        rw [List.getLast?_append_cons] at hlast
        cases since with
        | nil => simp at hlast
        | cons e since =>
            rw [List.getLast?_cons_cons] at hlast
            exact hsince (List.mem_of_getLast? hlast)

variable [DecidableEq δ]

/-- The open descriptors after one more call. -/
def record (table : Finset δ) : Event δ → Finset δ
  | .opened fd => insert fd table
  | .closed fd => table.erase fd

/-- The descriptors that are open after the calls so far. -/
def openAfter (log : List (Event δ)) : Finset δ := log.foldl record ∅

@[simp] lemma openAfter_nil : openAfter ([] : List (Event δ)) = ∅ := rfl

@[simp] lemma openAfter_concat (log : List (Event δ)) (e : Event δ) :
    openAfter (log ++ [e]) = record (openAfter log) e := by
  simp [openAfter]

/-- At no moment are two descriptors open. -/
def AtMostOne (log : List (Event δ)) : Prop := ∀ past ∈ log.inits, (openAfter past).card ≤ 1

lemma atMostOne_concat {log : List (Event δ)} {e : Event δ} :
    AtMostOne (log ++ [e]) ↔ AtMostOne log ∧ (record (openAfter log) e).card ≤ 1 := by
  simp only [AtMostOne, List.mem_inits, List.prefix_concat_iff]
  constructor
  · intro h
    exact ⟨fun past hpast => h past (.inr hpast), by simpa using h _ (.inl rfl)⟩
  · rintro ⟨h, hlast⟩ past (rfl | hpast)
    · simpa using hlast
    · exact h past hpast

lemma AtMostOne.earlier {log past : List (Event δ)} (h : AtMostOne log) (hpast : past <+: log) :
    AtMostOne past := by
  intro earlier hearlier
  rw [List.mem_inits] at hearlier
  exact h earlier ((List.mem_inits _ _).mpr (hearlier.trans hpast))

/-- An owner has open what it holds. -/
lemma Owned.openAfter_eq {log : List (Event δ)} {o : Option δ} (h : Owned log o) :
    openAfter log = o.toFinset := by
  induction h with
  | nil => rfl
  | opened fd _ ih => simp [record, ih]
  | closed _ ih => simp [record, ih]

/-- **An owner has at most one descriptor open.** -/
theorem Owned.atMostOne {log : List (Event δ)} {o : Option δ} (h : Owned log o) :
    AtMostOne log := by
  induction h with
  | nil => simp [AtMostOne]
  | opened fd h ih =>
      rw [atMostOne_concat, h.openAfter_eq]
      exact ⟨ih, by simp [record]⟩
  | closed h ih =>
      rw [atMostOne_concat, h.openAfter_eq]
      exact ⟨ih, by simp [record]⟩

/-- A second descriptor, next to the one that is held, is one too many. -/
lemma Owned.not_atMostOne_opened {log : List (Event δ)} {fd fd' : δ} (h : Owned log (some fd))
    (hfresh : fd' ∉ openAfter log) : ¬AtMostOne (log ++ [.opened fd']) := by
  rw [h.openAfter_eq, Option.toFinset_some, Finset.mem_singleton] at hfresh
  rw [atMostOne_concat, h.openAfter_eq]
  simp [record, Finset.card_pair hfresh]

end Descriptor
