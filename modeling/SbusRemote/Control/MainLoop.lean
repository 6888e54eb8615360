import SbusRemote.Core.Run
import SbusRemote.Control.RobotControl
import SbusRemote.Handle.Frame

/-!
# The main loop

One pass of `while(1)` in `main`: `data_align`, `sbus_receive`, `channel_command`,
`RobotControl`, over any device and any pattern of write outcomes.

The reception and the control half of a pass only meet in one value, the channel vector accepted,
if any.  `Pass.rc` makes that precise: whatever the device, the control state after a pass is
`react` of the one before, the reception and the link.  So a statement about control over *every*
sequence of accepted and rejected frames is a statement about runs of `Pass`, and is proved by
looking at `react`.  The other way round, the line does not see the control state:
`Pass.receives` and `pass_of_receives` make a pass one round of the reception.
-/

namespace SbusRemote

open ByteLine

variable {δ : Type}

/-- The whole program with its device.  `rc.sbusHandle` is `line` together with `rc.cmd`. -/
structure System (δ : Type) where
  line : LineState
  rc : RControl
  dev : δ

/-- The label of a pass: the channel vector `sbus_receive` accepted, `none` if it returned `-1`,
and whether `WriteMessage` gets each request through. -/
structure Label where
  rx : Option Channels
  link : Request → Bool

/-- One pass of the main loop, with a bound on the passes of `data_align`. -/
def mainPass (D : Device δ) (link : Request → Bool) (fuel : ℕ) (s : System δ) :
    Option (Option Channels × System δ) :=
  match dataAlign D fuel (s.line, s.dev) with
  | none => none
  | some (line, dev) =>
      let received := sbusReceive (D.read dev 25).1 ⟨line, s.rc.cmd⟩
      let rc := { s.rc with cmd := channelCommand received.2.toCommandState }
      some (if received.1 = 0 then some received.2.ch else none,
        { line := received.2.toLineState
          rc := robotControl link rc
          dev := (D.read dev 25).2 })

/-- A pass of the main loop leads from `s` to `t`. -/
def Pass (D : Device δ) (s : System δ) (l : Label) (t : System δ) : Prop :=
  ∃ fuel, mainPass D l.link fuel s = some (l.rx, t)

/-- `_CH` after the reception of a pass: replaced if a frame was accepted, else kept. -/
def RControl.receive (rc : RControl) (rx : Option Channels) : RControl :=
  { rc with cmd := { rc.cmd with ch := rx.getD rc.cmd.ch } }

/-- `channel_command`, on the whole control state. -/
def RControl.command (rc : RControl) : RControl := { rc with cmd := channelCommand rc.cmd }

/-- The control half of a pass. -/
def react (rc : RControl) (l : Label) : RControl :=
  robotControl l.link (rc.receive l.rx).command

/-- **A pass acts on the control state through the reception alone.** -/
theorem Pass.rc {D : Device δ} {s t : System δ} {l : Label} (h : Pass D s l t) :
    t.rc = react s.rc l := by
  obtain ⟨fuel, hf⟩ := h
  simp only [mainPass] at hf
  split at hf
  · exact absurd hf (by simp)
  · rename_i line dev _
    rw [Option.some_inj, Prod.mk.injEq] at hf
    obtain ⟨hrx, rfl⟩ := hf
    by_cases hr : Accepts (D.read dev 25).1 ⟨line, s.rc.cmd⟩
    · rw [sbusReceive_accepted hr] at hrx ⊢
      simp only [if_true] at hrx
      rw [react, ← hrx]
      rfl
    · rw [sbusReceive_rejected hr] at hrx ⊢
      rw [if_neg (show ¬(-1 : ℤ) = 0 by decide)] at hrx
      rw [react, ← hrx]
      rfl

/-- **A pass is a round of the reception**, as far as the line goes. -/
theorem Pass.receives {D : Device δ} {s t : System δ} {l : Label} (h : Pass D s l t) :
    ∃ ret u, Receives D (⟨s.line, s.rc.cmd⟩, s.dev) ret u ∧
      l.rx = (if ret = 0 then some u.1.ch else none) ∧ t.line = u.1.toLineState ∧ t.dev = u.2 := by
  obtain ⟨fuel, hf⟩ := h
  simp only [mainPass] at hf
  split at hf
  · exact absurd hf (by simp)
  · rename_i line dev hal
    rw [Option.some_inj, Prod.mk.injEq] at hf
    obtain ⟨hrx, rfl⟩ := hf
    exact ⟨_, (_, _), ⟨line, dev, ⟨fuel, hal⟩, rfl, rfl⟩, hrx.symm, rfl, rfl⟩

/-- A round of the reception makes a pass, on any link. -/
theorem pass_of_receives {D : Device δ} {s : System δ} {ret : ℤ} {u : SbusHandle × δ}
    (h : Receives D (⟨s.line, s.rc.cmd⟩, s.dev) ret u) (link : Request → Bool) :
    ∃ t, Pass D s ⟨if ret = 0 then some u.1.ch else none, link⟩ t ∧ t.line = u.1.toLineState ∧
      t.dev = u.2 := by
  obtain ⟨line, dev, ⟨fuel, hf⟩, hr, hd⟩ := h
  refine ⟨⟨u.1.toLineState,
    robotControl link { s.rc with cmd := channelCommand u.1.toCommandState }, u.2⟩, ⟨fuel, ?_⟩,
    rfl, rfl⟩
  simp only [mainPass, hf, hr, hd]

/-- Passes from the same line and device run alike, whatever the control state and the link. -/
theorem Pass.line_unique {D : Device δ} {s s' t t' : System δ} {l l' : Label}
    (h : Pass D s l t) (h' : Pass D s' l' t') (hline : s.line = s'.line) (hdev : s.dev = s'.dev) :
    l.rx = l'.rx ∧ t.line = t'.line ∧ t.dev = t'.dev := by
  obtain ⟨ret, u, hu, hrx, htl, htd⟩ := h.receives
  obtain ⟨ret', u', hu', hrx', htl', htd'⟩ := h'.receives
  rw [← hline, ← hdev] at hu'
  obtain ⟨rfl, hl, hd, hch⟩ := hu.line_unique hu'
  refine ⟨?_, by rw [htl, htl', hl], by rw [htd, htd', hd]⟩
  rw [hrx, hrx']
  split_ifs with h0
  · rw [hch h0]
  · rfl

/-! ## Starting up -/

/-- What the members that no constructor sets happen to contain. -/
structure Memory where
  readLen : ℤ
  buff1 : Fin 1 → UInt8
  buff24 : Fin 24 → UInt8
  buff25 : Fin 25 → UInt8
  ch : Channels
  chBuff : Channels

/-- The control state before the first pass: the constructor of `SbusHandle`, the member
initialisers, zeroed statics, and `dm` with both request topics set. -/
def RControl.init (m : Memory) : RControl where
  cmd :=
    { userCmd := .none
      handleCmd := Handle.setJoystickZero ⟨0, 0, 0, 0, Key.setKeyFalse⟩
      lock := true
      ch := m.ch
      chBuff := m.chBuff
      standL := false }
  ot := fun _ => 0
  prlx := 0
  prly := 0
  prrx := 0
  prry := 0
  dm := { quit := false, writer := fun _ => true, issued := [], delivered := [] }

/-- The program before the first pass. -/
def System.init (m : Memory) (dev : δ) : System δ where
  line :=
    { align := false
      running := true
      readLen := m.readLen
      buff1 := m.buff1
      buff24 := m.buff24
      buff25 := m.buff25 }
  rc := RControl.init m
  dev := dev

/-- Members that happen to hold centred channels. -/
def Memory.centred : Memory where
  readLen := 0
  buff1 := fun _ => 0
  buff24 := fun _ => 0
  buff25 := fun _ => 0
  ch := SbusRemote.centred
  chBuff := SbusRemote.centred

/-! ## What every pass maintains -/

lemma settled_init (m : Memory) : (RControl.init m).Settled :=
  ⟨rfl, rfl, rfl, rfl, rfl, ⟨rfl, fun _ => rfl⟩⟩

lemma react_settled {rc : RControl} (l : Label) (h : rc.Settled) : (react rc l).Settled :=
  robotControl_settled l.link h.ready

/-- The control state the requests of a pass are computed from. -/
def responding (rc : RControl) (l : Label) : RControl := (rc.receive l.rx).command

/-- The requests of a pass. -/
def passRequests (rc : RControl) (l : Label) : List Request := requests (responding rc l)

@[simp] lemma react_issued (rc : RControl) (l : Label) :
    (react rc l).dm.issued = rc.dm.issued ++ passRequests rc l := by
  rw [react, robotControl_dm, writeAll_issued]
  rfl

lemma react_delivered {rc : RControl} (l : Label) (h : rc.Settled) :
    (react rc l).dm.delivered = rc.dm.delivered ++ (passRequests rc l).filter l.link := by
  rw [react, robotControl_dm]
  exact writeAll_delivered l.link h.ready _

/-- The requests issued between two control states of one run. -/
def issuedIn (rc rc' : RControl) : List Request := rc'.dm.issued.drop rc.dm.issued.length

lemma Pass.issuedIn {D : Device δ} {s t : System δ} {l : Label} (h : Pass D s l t) :
    issuedIn s.rc t.rc = passRequests s.rc l := by
  rw [SbusRemote.issuedIn, h.rc, react_issued, List.drop_left]

/-- The requests delivered between two control states of one run. -/
def deliveredIn (rc rc' : RControl) : List Request := rc'.dm.delivered.drop rc.dm.delivered.length

lemma Pass.deliveredIn {D : Device δ} {s t : System δ} {l : Label} (h : Pass D s l t)
    (hs : s.rc.Settled) : deliveredIn s.rc t.rc = (passRequests s.rc l).filter l.link := by
  rw [SbusRemote.deliveredIn, h.rc, react_delivered l hs, List.drop_left]

/-- The keys `channel_command` reads in a pass. -/
def passKeys (rc : RControl) (l : Label) : Key :=
  readKeys rc.cmd.chBuff (l.rx.getD rc.cmd.ch) rc.cmd.handleCmd.key

/-- The user command of a pass. -/
def passCommand (rc : RControl) (l : Label) : UserCommand :=
  (selectCommand (passKeys rc l) rc.cmd.standL .none).1

/-- **The stance and the command of a pass.** -/
theorem pass_effect {rc : RControl} (l : Label) (h : rc.Settled) :
    Effect rc.cmd.standL (passCommand rc l) (react rc l).cmd.standL := by
  have he := selectCommand_effect (passKeys rc l) rc.cmd.standL
  have hs : (react rc l).cmd.standL
      = (selectCommand (passKeys rc l) rc.cmd.standL rc.cmd.userCmd).2 := rfl
  rw [hs, h.userCmd]
  exact he

/-- The requests of a pass: the command's, then the motion. -/
lemma passRequests_eq {rc : RControl} (l : Label) (h : rc.Settled) :
    passRequests rc l = (commandRequest (passCommand rc l)).toList
      ++ moves (responding rc l) ++ eulers (responding rc l) := by
  have hc : (responding rc l).cmd.userCmd
      = (selectCommand (passKeys rc l) rc.cmd.standL rc.cmd.userCmd).1 := rfl
  rw [passRequests, requests, hc, h.userCmd]
  rfl

lemma mem_moves {rc : RControl} {q : Request} (h : q ∈ moves rc) :
    q = moveRequest (filtered rc 0) (filtered rc 1) (filtered rc 3) := by
  unfold moves at h
  split_ifs at h
  · simp at h
  · simpa using h

lemma mem_eulers {rc : RControl} {q : Request} (h : q ∈ eulers rc) :
    q = eulerRequest (filtered rc 2) := by
  unfold eulers at h
  split_ifs at h
  · simp at h
  · simpa using h

/-- What is neither a `Move` nor an `Euler` comes from the command. -/
lemma filter_passRequests {rc : RControl} (l : Label) (h : rc.Settled) {p : Request → Bool}
    (hm : ∀ x y z, p (moveRequest x y z) = false) (he : ∀ y, p (eulerRequest y) = false) :
    (passRequests rc l).filter p = (commandRequest (passCommand rc l)).toList.filter p := by
  have hmoves : (moves (responding rc l)).filter p = [] := by
    refine List.filter_eq_nil_iff.mpr fun q hq => ?_
    rw [mem_moves hq, hm]
    simp
  have heulers : (eulers (responding rc l)).filter p = [] := by
    refine List.filter_eq_nil_iff.mpr fun q hq => ?_
    rw [mem_eulers hq, he]
    simp
  rw [passRequests_eq l h, List.filter_append, List.filter_append, hmoves, heulers,
    List.append_nil, List.append_nil]

/-! ## Motion -/

/-- The stick value of each axis of the filter, from a channel vector. -/
def sticks (ch : Channels) : Fin 4 → ℚ := ![stickLx ch, stickLy ch, stickRx ch, stickRy ch]

/-- The velocities of a pass: each axis takes one step toward its stick. -/
lemma filtered_responding (rc : RControl) (l : Label) (i : Fin 4) :
    filtered (responding rc l) i
      = filterStep (rc.ot i) (sticks (l.rx.getD rc.cmd.ch) i) := by
  have hs : stick (responding rc l).cmd.handleCmd = sticks (l.rx.getD rc.cmd.ch) := by
    simp only [stick, responding, RControl.command, RControl.receive, channelCommand, sticks]
  have ho : (responding rc l).ot = rc.ot := rfl
  rw [filtered, hs, ho]

lemma react_ot (rc : RControl) (l : Label) (i : Fin 4) :
    (react rc l).ot i = filterStep (rc.ot i) (sticks (l.rx.getD rc.cmd.ch) i) := by
  rw [react, robotControl_ot]
  exact filtered_responding rc l i

/-- A `Move` or an `Euler`. -/
def isMotion (q : Request) : Bool := q.topic = .sport && (q.apiId = 1008 || q.apiId = 1007)

lemma isMotion_commandRequest {c : UserCommand} {q : Request}
    (h : q ∈ (commandRequest c).toList) : isMotion q = false := by
  cases c <;> simp [commandRequest, lieDownRequest, standUpRequest] at h <;> subst h <;> rfl

/-- The motion requests of a pass are its `Move`s and its `Euler`s. -/
lemma mem_motion {rc : RControl} {l : Label} {q : Request} (hq : isMotion q = true) :
    q ∈ passRequests rc l ↔ q ∈ moves (responding rc l) ∨ q ∈ eulers (responding rc l) := by
  rw [passRequests, requests, List.mem_append, List.mem_append]
  constructor
  · rintro ((h | h) | h)
    · rw [isMotion_commandRequest h] at hq
      exact absurd hq (by decide)
    · exact Or.inl h
    · exact Or.inr h
  · rintro (h | h)
    · exact Or.inl (Or.inr h)
    · exact Or.inr h

/-- Any other request is the command's. -/
lemma mem_passRequests {rc : RControl} (l : Label) (h : rc.Settled) {q : Request}
    (hq : isMotion q = false) :
    q ∈ passRequests rc l ↔ commandRequest (passCommand rc l) = some q := by
  have hmoves : q ∉ moves (responding rc l) := by
    intro hm
    rw [mem_moves hm] at hq
    exact absurd hq (by simp [isMotion, moveRequest])
  have heulers : q ∉ eulers (responding rc l) := by
    intro he
    rw [mem_eulers he] at hq
    exact absurd hq (by simp [isMotion, eulerRequest])
  simp [passRequests_eq l h, hmoves, heulers]

/-- Unless all its velocities are zero, the `Move` is sent. -/
lemma move_mem {rc : RControl} {l : Label} (h : ¬(filtered (responding rc l) 0 = 0 ∧
      filtered (responding rc l) 1 = 0 ∧ filtered (responding rc l) 3 = 0)) :
    moveRequest (filtered (responding rc l) 0) (filtered (responding rc l) 1)
      (filtered (responding rc l) 3) ∈ passRequests rc l :=
  (mem_motion rfl).mpr (Or.inl (by simp [moves, h]))

/-- Unless its velocity is zero, the `Euler` is sent. -/
lemma euler_mem {rc : RControl} {l : Label} (h : filtered (responding rc l) 2 ≠ 0) :
    eulerRequest (filtered (responding rc l) 2) ∈ passRequests rc l :=
  (mem_motion rfl).mpr (Or.inr (by simp [eulers, h]))

/-- **The invariant rule of the main loop.**  What `react` preserves from settled states holds at
the end of every run, and the loop is settled there. -/
theorem Pass.invariant {D : Device δ} {I : RControl → Prop}
    (preserves : ∀ rc l, rc.Settled → I rc → I (react rc l)) {s : System δ}
    {r : List (Label × System δ)} (hr : Lts.IsRun (Pass D) s r) (hs : s.rc.Settled)
    (hI : I s.rc) : (Lts.final s r).rc.Settled ∧ I (Lts.final s r).rc :=
  hr.invariant (I := fun s => s.rc.Settled ∧ I s.rc)
    (fun _ l _ hp h => by
      rw [hp.rc]
      exact ⟨react_settled l h.1, preserves _ l h.1 h.2⟩)
    ⟨hs, hI⟩

/-- **Every pass starts settled and in the invariant.**  `P` is what is known of each pass of the
run: that it is a pass, and what a statement assumes of it. -/
theorem Pass.attach {P : System δ → Label → System δ → Prop} {I : RControl → Prop}
    (hP : ∀ s l t, P s l t → t.rc = react s.rc l)
    (preserves : ∀ s l t, P s l t → s.rc.Settled → I s.rc → I (react s.rc l)) {s : System δ}
    {r : List (Label × System δ)} (hr : Lts.IsRun P s r) (hs : s.rc.Settled) (hI : I s.rc) :
    Lts.IsRun (fun s l t => P s l t ∧ s.rc.Settled ∧ I s.rc) s r :=
  hr.attach
    (fun s l t hp h => by
      rw [hP s l t hp]
      exact ⟨react_settled l h.1, preserves s l t hp h.1 h.2⟩)
    ⟨hs, hI⟩

/-- The loop is settled wherever a run ends, -/
lemma Pass.settled {D : Device δ} {s : System δ} {r : List (Label × System δ)}
    (hr : Lts.IsRun (Pass D) s r) (hs : s.rc.Settled) : (Lts.final s r).rc.Settled :=
  (Pass.invariant (I := fun _ => True) (fun _ _ _ _ => trivial) hr hs trivial).1

/-- and wherever a pass starts. -/
lemma Pass.attach_settled {D : Device δ} {s : System δ} {r : List (Label × System δ)}
    (hr : Lts.IsRun (Pass D) s r) (hs : s.rc.Settled) :
    Lts.IsRun (fun s l t => Pass D s l t ∧ s.rc.Settled) s r :=
  (Pass.attach (I := fun _ => True) (fun _ _ _ hp => hp.rc) (fun _ _ _ _ _ _ => trivial) hr hs
    trivial).mono fun _ _ _ h => ⟨h.1, h.2.1⟩

/-- The log of a run only grows. -/
lemma issued_final {D : Device δ} {s : System δ} {r : List (Label × System δ)}
    (hr : Lts.IsRun (Pass D) s r) : (Lts.final s r).rc.dm.issued
      = s.rc.dm.issued ++ issuedIn s.rc (Lts.final s r).rc := by
  have hp := hr.invariant (I := fun t => s.rc.dm.issued <+: t.rc.dm.issued)
    (fun t l u h ht => by
      rw [h.rc, react_issued]
      exact ht.trans (List.prefix_append _ _))
    (List.prefix_refl _)
  exact (List.prefix_iff_eq_append.mp hp).symm

/-! ## Running the loop

`mainLoop` executes passes, one for each link given.
-/

/-- The run of the main loop over a list of links; `none` if `data_align` ran out of passes. -/
def mainLoop (D : Device δ) (fuel : ℕ) :
    List (Request → Bool) → System δ → Option (List (Label × System δ))
  | [], _ => some []
  | link :: links, s =>
      match mainPass D link fuel s with
      | none => none
      | some (rx, t) => (mainLoop D fuel links t).map ((⟨rx, link⟩, t) :: ·)

lemma mainLoop_isRun {D : Device δ} {fuel : ℕ} :
    ∀ {links : List (Request → Bool)} {s : System δ} {r : List (Label × System δ)},
      mainLoop D fuel links s = some r → Lts.IsRun (Pass D) s r
  | [], s, r, h => by
      rw [mainLoop, Option.some_inj] at h
      subst h
      trivial
  | link :: links, s, r, h => by
      rw [mainLoop] at h
      split at h
      · exact absurd h (by simp)
      · rename_i rx t hp
        obtain ⟨r', hr', rfl⟩ := Option.map_eq_some_iff.mp h
        exact ⟨⟨fuel, hp⟩, mainLoop_isRun hr'⟩

/-- The run of one pass for each link given, when two tests of `data_align`'s condition are enough
for each. -/
-- irreducible, or every use of a statement about it would run the loop in the elaborator
@[irreducible] def executed (D : Device δ) (links : List (Request → Bool)) (s : System δ) :
    List (Label × System δ) := (mainLoop D 2 links s).getD []

lemma executed_isRun {D : Device δ} {links : List (Request → Bool)} {s : System δ}
    (h : (mainLoop D 2 links s).isSome = true) : Lts.IsRun (Pass D) s (executed D links s) := by
  obtain ⟨r, hr⟩ := Option.isSome_iff_exists.mp h
  rw [executed, hr, Option.getD_some]
  exact mainLoop_isRun hr

/-- The run on a transmitter that sends `vs` then centred frames, from centred memory.  The first
frame is consumed by the alignment. -/
abbrev scenario (vs : List Channels) (links : List (Request → Bool)) :
    List (Label × System ℕ) :=
  executed (exactLine (script vs)) links (System.init Memory.centred 0)

end SbusRemote
