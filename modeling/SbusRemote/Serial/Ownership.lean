import SbusRemote.Core.Run
import SbusRemote.Serial.Port

/-!
# Who owns the descriptor of the port

A port is opened and closed in any order, and the system calls may fail in any way.  Against the
code stands an owner of one descriptor, `Phase`: it holds nothing, holds a descriptor, or has lost
one, when a failed `open` overwrote its number.

* `OwnsDescriptor` — no descriptor is closed twice, no two are open at a time, and a failed
  `openPort` leaves nothing behind.
* `phase_follows` — the code follows the owner for as long as it owns its descriptors, and the owner
  refuses the first call that breaks this.
* `owns_descriptor_iff` — which calls these are, in terms of the answers alone.
-/

namespace SbusRemote

open Descriptor Lts

/-! ## Runs of the port -/

/-- A call on the port, with the answers it gets from the system. -/
inductive PortCall where
  | opens (a : Answers)
  | closes
  deriving DecidableEq, Repr

def PortCall.apply (p : SerialPort) : PortCall → SerialPort
  | .opens a => (openPort a p).2
  | .closes => closePort p

/-- `open` returns `-1` or a descriptor that is not open. -/
def PortCall.Fresh (p : SerialPort) : PortCall → Prop
  | .opens a => a.opened = -1 ∨ a.opened ∉ openAfter p.log
  | .closes => True

/-- One call. -/
def PortStep (s : SerialPort) (c : PortCall) (t : SerialPort) : Prop := c.Fresh s ∧ t = c.apply s

/-- An `openPort` that reports failure leaves none of its descriptors open, and `serial_fd` at
`-1`. -/
def Released (s : SerialPort) : PortCall → SerialPort → Prop
  | .opens a, t => (openPort a s).1.isOk = false →
      (a.opened ≠ -1 → a.opened ∉ openAfter t.log) ∧ t.serialFd = -1
  | .closes, _ => True

/-- What a run has to keep. -/
structure OwnsDescriptor (r : List (PortCall × SerialPort)) : Prop where
  closed_once : ∀ fd, ¬ClosedTwice fd (final SerialPort.new r).log
  at_most_one : IsRun (fun _ _ t => AtMostOne t.log) SerialPort.new r
  released : IsRun Released SerialPort.new r

instance PortCall.decidableFresh (p : SerialPort) : ∀ c : PortCall, Decidable (c.Fresh p)
  | .opens a => inferInstanceAs (Decidable (a.opened = -1 ∨ a.opened ∉ openAfter p.log))
  | .closes => isTrue trivial

instance PortStep.decidable (s : SerialPort) (c : PortCall) (t : SerialPort) :
    Decidable (PortStep s c t) :=
  inferInstanceAs (Decidable (_ ∧ _))

/-- The run over a list of calls. -/
def portRun : List PortCall → SerialPort → List (PortCall × SerialPort)
  | [], _ => []
  | c :: cs, s => (c, c.apply s) :: portRun cs (c.apply s)

/-! ## The owner -/

/-- What the owner of a port has. -/
inductive Phase where
  | idle
  | held (fd : ℤ)
  | lost (fd : ℤ)
  deriving DecidableEq, Repr

/-- The owner goes along with a call unless it would lose track of a descriptor that is open, or
keep the number of one that is closed. -/
def Phase.next : Phase → PortCall → Option Phase
  | .idle, .closes => some .idle
  | .idle, .opens a =>
      if a.opened = -1 then some .idle
      else if a.isatty = 0 then none
      else if a.tcgetattr ≠ 0 then some .idle
      else if a.tcsetattr ≠ 0 then none
      else some (.held a.opened)
  | .held _, .closes => some .idle
  | .held fd, .opens a => if a.opened = -1 then some (.lost fd) else none
  | .lost fd, .closes => some (.lost fd)
  | .lost fd, .opens a => if a.opened = -1 then some (.lost fd) else none

/-- What the owner has is what the port and its calls say. -/
def InPhase (s : SerialPort) : Phase → Prop
  | .idle => s.serialFd = -1 ∧ Owned s.log none
  | .held fd => s.serialFd = fd ∧ fd ≠ -1 ∧ Owned s.log (some fd)
  | .lost fd => s.serialFd = -1 ∧ Owned s.log (some fd)

/-- The step property of a run: at most one descriptor, and nothing left by a failure. -/
def KeepsDescriptor (s : SerialPort) (c : PortCall) (t : SerialPort) : Prop :=
  AtMostOne t.log ∧ Released s c t

lemma InPhase.owned {s : SerialPort} {ph : Phase} (h : InPhase s ph) : ∃ o, Owned s.log o := by
  cases ph with
  | idle => exact ⟨_, h.2⟩
  | held fd => exact ⟨_, h.2.2⟩
  | lost fd => exact ⟨_, h.2⟩

/-- `openPort` on a port without a descriptor. -/
lemma idle_opens {s : SerialPort} (hs : InPhase s .idle) (a : Answers) :
    Verdict (KeepsDescriptor s (.opens a) (openPort a s).2) (InPhase (openPort a s).2)
      (Phase.idle.next (.opens a)) := by
  obtain ⟨hfd, hown⟩ := hs
  by_cases h : a.opened = -1
  · simp [Verdict, Phase.next, KeepsDescriptor, Released, InPhase, h, openPort_failed h, hown,
      hown.atMostOne]
  · have hopened := hown.opened a.opened
    have hclosed := hopened.closed
    simp only [Phase.next, if_neg h, KeepsDescriptor, Released, openPort_opened h]
    split_ifs with htty hget hset
    · -- not a terminal: the descriptor stays open
      intro hkeep
      exact h (hkeep.2 rfl).2
    · refine ⟨⟨hclosed.atMostOne, fun _ => ⟨fun _ => ?_, rfl⟩⟩, rfl, hclosed⟩
      rw [hclosed.openAfter_eq]
      simp
    · -- the number of a closed descriptor stays
      intro hkeep
      exact h (hkeep.2 rfl).2
    · exact ⟨⟨hopened.atMostOne, fun hfail => Bool.noConfusion hfail⟩, rfl, h, hopened⟩

/-- `openPort` while a descriptor is open: either `open` fails too, or there are two. -/
lemma open_opens {s : SerialPort} {fd : ℤ} (hown : Owned s.log (some fd)) {a : Answers}
    (hfresh : (PortCall.opens a).Fresh s) :
    Verdict (KeepsDescriptor s (.opens a) (openPort a s).2) (InPhase (openPort a s).2)
      (if a.opened = -1 then some (.lost fd) else none) := by
  split_ifs with h
  · simp [Verdict, KeepsDescriptor, Released, InPhase, h, openPort_failed h, hown,
      hown.atMostOne]
  · intro hkeep
    have hsecond : ¬AtMostOne (s.log ++ [.opened a.opened]) :=
      hown.not_atMostOne_opened (hfresh.resolve_left h)
    have hlog : s.log ++ [.opened a.opened] <+: (openPort a s).2.log := by
      rw [openPort_opened h]
      split_ifs <;> simp
    exact hsecond (hkeep.1.earlier hlog)

/-- `closePort` in any phase. -/
lemma closes_follows {s : SerialPort} {ph : Phase} (hs : InPhase s ph) :
    Verdict (KeepsDescriptor s .closes (closePort s)) (InPhase (closePort s))
      (ph.next .closes) := by
  obtain ⟨serialFd, log⟩ := s
  cases ph with
  | idle =>
      obtain ⟨rfl, hown⟩ := hs
      rw [closePort_without]
      exact ⟨⟨hown.atMostOne, trivial⟩, rfl, hown⟩
  | held fd =>
      obtain ⟨rfl, hfd, hown⟩ := hs
      rw [closePort_held hfd]
      exact ⟨⟨hown.closed.atMostOne, trivial⟩, rfl, hown.closed⟩
  | lost fd =>
      obtain ⟨rfl, hown⟩ := hs
      rw [closePort_without]
      exact ⟨⟨hown.atMostOne, trivial⟩, rfl, hown⟩

/-- **The code follows the owner**, up to the first call that the owner refuses, and that call
breaks what a run has to keep. -/
theorem phase_follows {s t : SerialPort} {c : PortCall} {ph : Phase} (h : PortStep s c t)
    (hs : InPhase s ph) : Verdict (KeepsDescriptor s c t) (InPhase t) (ph.next c) := by
  obtain ⟨hfresh, rfl⟩ := h
  cases c with
  | closes => exact closes_follows hs
  | opens a =>
      cases ph with
      | idle => exact idle_opens hs a
      | held fd => exact open_opens hs.2.2 hfresh
      | lost fd => exact open_opens hs.2 hfresh

/-! ## The calls the owner accepts -/

/-- Once it has a descriptor, `openPort` fails nowhere but in `tcgetattr`. -/
def Answers.Tidy (a : Answers) : Prop :=
  a.opened ≠ -1 → a.isatty ≠ 0 ∧ (a.tcgetattr = 0 → a.tcsetattr = 0)

/-- The answers with which `openPort` returns `true`. -/
def Answers.Succeeds (a : Answers) : Prop :=
  a.opened ≠ -1 ∧ a.isatty ≠ 0 ∧ a.tcgetattr = 0 ∧ a.tcsetattr = 0

def PortCall.OpenFails : PortCall → Prop
  | .opens a => a.opened = -1
  | .closes => True

/-- Every `openPort` is tidy, and after one that succeeds `closePort` is called, or no `open`
succeeds again. -/
def Orderly : List PortCall → Prop
  | [] => True
  | .closes :: cs => Orderly cs
  | .opens a :: cs =>
      a.Tidy ∧ (a.Succeeds → cs.head? = some .closes ∨ ∀ c ∈ cs, c.OpenFails) ∧ Orderly cs

instance PortCall.decidableOpenFails : ∀ c : PortCall, Decidable c.OpenFails
  | .opens a => inferInstanceAs (Decidable (a.opened = -1))
  | .closes => isTrue trivial

instance Orderly.decidable : ∀ cs : List PortCall, Decidable (Orderly cs)
  | [] => isTrue trivial
  | .closes :: cs => Orderly.decidable cs
  | .opens a :: cs =>
      have := Orderly.decidable cs
      inferInstanceAs (Decidable ((a.opened ≠ -1 → _ ∧ (_ → _)) ∧
        (a.opened ≠ -1 ∧ _ ∧ _ ∧ _ → _ ∨ ∀ c ∈ cs, c.OpenFails) ∧ Orderly cs))

/-- Calls that open nothing are orderly. -/
lemma orderly_of_openFails : ∀ {cs : List PortCall}, (∀ c ∈ cs, c.OpenFails) → Orderly cs
  | [], _ => trivial
  | .closes :: cs, h => @orderly_of_openFails cs (List.forall_mem_cons.mp h).2
  | .opens a :: cs, h => by
      obtain ⟨ha, hcs⟩ := List.forall_mem_cons.mp h
      exact ⟨fun hopened => absurd ha hopened, fun hsucc => absurd ha hsucc.1,
        orderly_of_openFails hcs⟩

/-- An owner that lost its descriptor accepts calls that open nothing. -/
lemma lost_accepts (fd : ℤ) : ∀ cs : List PortCall,
    (cs.foldlM Phase.next (.lost fd)).isSome ↔ ∀ c ∈ cs, c.OpenFails
  | [] => by simp
  | .closes :: cs => by
      rw [List.foldlM_cons, List.forall_mem_cons, ← lost_accepts fd cs]
      simp [Phase.next, PortCall.OpenFails]
  | .opens a :: cs => by
      rw [List.foldlM_cons, List.forall_mem_cons, ← lost_accepts fd cs]
      by_cases h : a.opened = -1 <;> simp [Phase.next, PortCall.OpenFails, h]

/-- An owner without a descriptor accepts orderly calls, and one that holds a descriptor those that
go on with `closePort` or open nothing more. -/
lemma owner_accepts (cs : List PortCall) :
    ((cs.foldlM Phase.next .idle).isSome ↔ Orderly cs) ∧
    ∀ fd, (cs.foldlM Phase.next (.held fd)).isSome ↔
      (cs.head? = some .closes ∨ ∀ c ∈ cs, c.OpenFails) ∧ Orderly cs := by
  induction cs with
  | nil => simp [Orderly]
  | cons c cs ih =>
      obtain ⟨idle, held⟩ := ih
      cases c with
      | closes => simpa [Phase.next, Orderly] using idle
      | opens a =>
          refine ⟨?_, fun fd => ?_⟩
          · rw [List.foldlM_cons, Orderly, Answers.Tidy, Answers.Succeeds]
            simp only [Phase.next]
            split_ifs with h htty hget hset
            · simpa [h] using idle
            · simp [h, htty]
            · simpa [h, htty, hget] using idle
            · simp [h, htty, not_not.mp hget, hset]
            · simpa [h, htty, not_not.mp hget, not_not.mp hset] using held a.opened
          · by_cases h : a.opened = -1
            · rw [List.foldlM_cons]
              simp only [Phase.next, if_pos h, Option.bind_eq_bind, Option.bind_some, lost_accepts]
              constructor
              · intro hcs
                have hall : ∀ c ∈ .opens a :: cs, c.OpenFails :=
                  List.forall_mem_cons.mpr ⟨h, hcs⟩
                exact ⟨.inr hall, orderly_of_openFails hall⟩
              · rintro ⟨hhead | hall, -⟩
                · simp at hhead
                · exact (List.forall_mem_cons.mp hall).2
            · simp [Phase.next, PortCall.OpenFails, h]

/-- **Ownership of the descriptor.**  In every run of `openPort` and `closePort` from a new port no
descriptor is closed twice, no two are open at a time and a failure leaves none behind, if and only
if its calls are orderly. -/
theorem owns_descriptor_iff {r : List (PortCall × SerialPort)}
    (hr : IsRun PortStep SerialPort.new r) : OwnsDescriptor r ↔ Orderly (r.map Prod.fst) := by
  have hfollows := hr.foldlM (P := KeepsDescriptor) (R := InPhase) (a := .idle)
    (fun _ _ _ _ h hs => phase_follows h hs) ⟨rfl, .nil⟩
  rw [← (owner_accepts _).1]
  cases hend : (r.map Prod.fst).foldlM Phase.next .idle with
  | none =>
      rw [hend] at hfollows
      refine ⟨fun h => absurd (h.at_most_one.and h.released) hfollows, by simp⟩
  | some ph =>
      rw [hend] at hfollows
      obtain ⟨hkeep, hphase⟩ := hfollows
      obtain ⟨o, hown⟩ := hphase.owned
      exact ⟨fun _ => rfl, fun _ => ⟨hown.not_closedTwice, hkeep.mono fun _ _ _ h => h.1,
        hkeep.mono fun _ _ _ h => h.2⟩⟩

/-- Opened, closed, opened in vain, and opened again. -/
theorem owns_descriptor_reopened : OwnsDescriptor (portRun
    [.opens ⟨3, 1, 0, 0⟩, .closes, .opens ⟨3, 1, -1, 0⟩, .opens ⟨-1, 0, 0, 0⟩,
      .opens ⟨3, 1, 0, 0⟩, .closes] SerialPort.new) :=
  (owns_descriptor_iff (by decide)).mpr (by decide)

/-- `tcsetattr` refuses the attributes, and `closePort` closes the descriptor once more. -/
theorem descriptor_closed_twice : ¬∀ r : List (PortCall × SerialPort),
    IsRun PortStep SerialPort.new r → OwnsDescriptor r := by
  intro h
  have howns := h (portRun [.opens ⟨3, 1, 0, -1⟩, .closes] SerialPort.new) (by decide)
  exact howns.closed_once 3 ⟨[.opened 3], [], [], by decide, by simp⟩

end SbusRemote
