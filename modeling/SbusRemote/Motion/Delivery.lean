import SbusRemote.Control.MainLoop

/-!
# Motion and lost writes

`RobotControl` sends a `Move` unless the velocities are zero and were zero before.  Moving, it
sends in every pass, so a lost `Move` is made good by the next.  Coming to rest, it sends one
`Move` of zeros and falls silent; `dds_vuiApiReq_xyz` discards what `WriteMessage` returns, so
nothing notices if that one is lost (`stop_lost`).

What the robot last received is therefore wrong after a pass with the link up exactly if a stop
was lost while the robot was still told to move and the velocities have been zero ever since
(`stop_delivered_iff`).
-/

namespace SbusRemote

open ByteLine Lts

variable {δ : Type}

/-- A pass on a link that is up or down for all of its requests. -/
def LinkPass (D : Device δ) (s : System δ) (l : Option Channels × Bool) (t : System δ) : Prop :=
  Pass D s ⟨l.1, fun _ => l.2⟩ t

/-- The velocities a `Move` carries. -/
def moveOf (q : Request) : Option (ℚ × ℚ × ℚ) :=
  match q with
  | ⟨.sport, 1008, .xyz x y z⟩ => some (x, y, z)
  | _ => none

/-- The velocities of the last `Move` in a log, zero if there is none. -/
def lastMove (log : List Request) : ℚ × ℚ × ℚ := (log.filterMap moveOf).getLast?.getD 0

/-- The filtered velocities after a pass: `nlx`, `nly`, `nry`. -/
def velocity (rc : RControl) : ℚ × ℚ × ℚ := (rc.prlx, rc.prly, rc.prry)

lemma moveOf_commandRequest (c : UserCommand) :
    (commandRequest c).toList.filterMap moveOf = [] := by
  cases c <;> rfl

lemma moveOf_eulers (rc : RControl) : (eulers rc).filterMap moveOf = [] := by
  unfold eulers
  split_ifs <;> rfl

/-- A pass with the velocities at rest, before and after, sends no `Move`; any other sends one
with the new velocities. -/
lemma moveOf_passRequests {rc : RControl} (l : Label) (h : rc.Settled) :
    (passRequests rc l).filterMap moveOf
      = if velocity rc = 0 ∧ velocity (react rc l) = 0 then [] else [velocity (react rc l)] := by
  obtain ⟨hlx, hly, -, hry⟩ := robotControl_pr l.link (responding rc l)
  have hv : velocity (react rc l) = (filtered (responding rc l) 0, filtered (responding rc l) 1,
      filtered (responding rc l) 3) := by
    rw [velocity, ← hlx, ← hly, ← hry]
    rfl
  rw [passRequests_eq l h, List.filterMap_append, List.filterMap_append, moveOf_commandRequest,
    moveOf_eulers, List.append_nil, List.nil_append, hv, moves]
  by_cases hrest : velocity rc = 0 ∧ (filtered (responding rc l) 0,
      filtered (responding rc l) 1, filtered (responding rc l) 3) = (0 : ℚ × ℚ × ℚ)
  · obtain ⟨hold, hnew⟩ := hrest
    simp only [velocity, Prod.mk_eq_zero] at hold hnew
    obtain ⟨h0, h1, h3⟩ := hnew
    rw [if_pos, if_pos]
    · rfl
    · exact ⟨by simp [velocity, hold], by simp [h0, h1, h3]⟩
    · refine ⟨⟨h0.trans hold.1.symm, h1.trans hold.2.1.symm, h3.trans hold.2.2.symm⟩, h0, h1, h3⟩
  · rw [if_neg hrest, if_neg]
    · rfl
    · rintro ⟨⟨h0, h1, h3⟩, z0, z1, z3⟩
      refine hrest ⟨?_, by simp [z0, z1, z3]⟩
      rw [z0] at h0
      rw [z1] at h1
      rw [z3] at h3
      show (rc.prlx, rc.prly, rc.prry) = 0
      rw [show rc.prlx = 0 from h0.symm, show rc.prly = 0 from h1.symm,
        show rc.prry = 0 from h3.symm]
      rfl

/-- The last value of a kind in a log is that of the new part, if it has one. -/
lemma getLast?_filterMap_append {α β : Type*} (f : α → Option β) (log log' : List α) (d : β) :
    ((log ++ log').filterMap f).getLast?.getD d
      = (log'.filterMap f).getLast?.getD ((log.filterMap f).getLast?.getD d) := by
  rw [List.filterMap_append, List.getLast?_append]
  cases (log'.filterMap f).getLast? <;> rfl

lemma lastMove_append (log log' : List Request) (h : log'.filterMap moveOf = []) :
    lastMove (log ++ log') = lastMove log := by
  rw [lastMove, getLast?_filterMap_append, h]
  rfl

lemma lastMove_append_of_eq (log log' : List Request) (v : ℚ × ℚ × ℚ)
    (h : log'.filterMap moveOf = [v]) : lastMove (log ++ log') = v := by
  rw [lastMove, getLast?_filterMap_append, h]
  rfl

/-- A pass with the link down delivers nothing. -/
lemma delivered_down {D : Device δ} {s t : System δ} {rx : Option Channels} (hs : s.rc.Settled)
    (hp : LinkPass D s (rx, false) t) : t.rc.dm.delivered = s.rc.dm.delivered := by
  have hd := react_delivered ⟨rx, fun _ => false⟩ hs
  rw [List.filter_false, List.append_nil] at hd
  rw [Pass.rc hp, hd]

/-- A pass with the link up delivers what it sends: the new velocities, or no `Move` if the robot is
and was at rest. -/
lemma lastMove_up {D : Device δ} {s t : System δ} {rx : Option Channels} (hs : s.rc.Settled)
    (hp : LinkPass D s (rx, true) t) : lastMove t.rc.dm.delivered =
      if velocity s.rc = 0 ∧ velocity t.rc = 0 then lastMove s.rc.dm.delivered
      else velocity t.rc := by
  have hd := react_delivered ⟨rx, fun _ => true⟩ hs
  have hm := moveOf_passRequests ⟨rx, fun _ => true⟩ hs
  rw [List.filter_true] at hd
  rw [Pass.rc hp, hd]
  split_ifs at hm ⊢ with h
  · exact lastMove_append _ _ hm
  · exact lastMove_append_of_eq _ _ _ hm

/-- A pass that loses a stop: the link is down, the robot was last told to move, and the velocities
come to zero. -/
def LosesStop (s : System δ) (l : Option Channels × Bool) (t : System δ) : Prop :=
  l.2 = false ∧ lastMove s.rc.dm.delivered ≠ 0 ∧ velocity s.rc ≠ 0 ∧ velocity t.rc = 0

/-- A stop was lost, and the velocities have been zero since. -/
def StopLost (s : System δ) (r : List ((Option Channels × Bool) × System δ)) : Prop :=
  Since LosesStop (fun t => velocity t.rc = 0) s r

/-- At rest, but last told to move. -/
def RestUntold (s : System δ) : Prop := velocity s.rc = 0 ∧ lastMove s.rc.dm.delivered ≠ 0

/-- **One pass.**  The robot is at rest without having been told if the pass loses the stop, or if
it was before and stays at rest. -/
theorem restUntold_pass {D : Device δ} {s t : System δ} {l : Option Channels × Bool}
    (hs : s.rc.Settled) (hp : LinkPass D s l t) :
    RestUntold t ↔ LosesStop s l t ∨ RestUntold s ∧ velocity t.rc = 0 := by
  obtain ⟨rx, up⟩ := l
  cases up with
  | true =>
      have h := lastMove_up hs hp
      split_ifs at h with hrest
      · -- no `Move` was due
        simp [RestUntold, LosesStop, h, hrest]
      · -- a `Move` with the new velocities
        constructor
        · rintro ⟨hnew, huntold⟩
          exact absurd (h.trans hnew) huntold
        · rintro (⟨hdown, -⟩ | ⟨⟨hold, -⟩, hnew⟩)
          · exact absurd hdown.symm Bool.false_ne_true
          · exact absurd ⟨hold, hnew⟩ hrest
  | false =>
      have h : lastMove t.rc.dm.delivered = lastMove s.rc.dm.delivered := by
        rw [delivered_down hs hp]
      constructor
      · rintro ⟨hnew, huntold⟩
        by_cases hold : velocity s.rc = 0
        · exact Or.inr ⟨⟨hold, h ▸ huntold⟩, hnew⟩
        · exact Or.inl ⟨rfl, h ▸ huntold, hold, hnew⟩
      · rintro (⟨-, huntold, -, hnew⟩ | ⟨⟨-, huntold⟩, hnew⟩)
        · exact ⟨hnew, h ▸ huntold⟩
        · exact ⟨hnew, h ▸ huntold⟩

/-- **A whole run** from a fresh handle. -/
lemma restUntold_iff {D : Device δ} {m : Memory} {dev : δ}
    {r : List ((Option Channels × Bool) × System δ)}
    (hr : IsRun (LinkPass D) (System.init m dev) r) :
    (final (System.init m dev) r).rc.Settled ∧
    (RestUntold (final (System.init m dev) r) ↔ StopLost (System.init m dev) r) := by
  have hsettled : ∀ s l t, LinkPass D s l t → s.rc.Settled → t.rc.Settled := by
    intro s l t hp hs
    rw [Pass.rc hp]
    exact react_settled _ hs
  refine ⟨hr.invariant hsettled (settled_init m), ?_⟩
  have hpass : ∀ s l t, LinkPass D s l t ∧ s.rc.Settled →
      (RestUntold t ↔ LosesStop s l t ∨ RestUntold s ∧ velocity t.rc = 0) :=
    fun _ _ _ h => restUntold_pass h.2 h.1
  exact (hr.attach hsettled (settled_init m)).iff_since hpass fun h => h.2 rfl

/-- With every stick centred, the velocities are zero at once. -/
lemma velocity_centred {rc : RControl} {l : Label} (hs : rc.Settled)
    (hc : ∀ i, sticks (l.rx.getD rc.cmd.ch) i = 0) : velocity (react rc l) = 0 := by
  have hset := react_settled l hs
  have hot : ∀ i, (react rc l).ot i = 0 := by
    intro i
    rw [react_ot, hc, filterStep_zero]
  rw [velocity, hset.prlx, hset.prly, hset.prry, hot, hot, hot]
  rfl

/-- A pass leaves in `_CH` the vector it worked on. -/
lemma react_ch (rc : RControl) (l : Label) : (react rc l).cmd.ch = l.rx.getD rc.cmd.ch := by
  rfl

/-- **A stop that is lost.**  In every run of the main loop from a fresh handle, with a link that is
up or down in each pass and up in the last: the last delivered `Move` carries the current
velocities if and only if no stop was lost with the velocities at zero ever since.  With the sticks
centred, it carries zeros under the same condition. -/
theorem stop_delivered_iff (D : Device δ) (m : Memory) (dev : δ)
    (r : List ((Option Channels × Bool) × System δ))
    (hr : IsRun (LinkPass D) (System.init m dev) r)
    (hup : r.getLast?.map (fun e => e.1.2) = some true) :
    let t := final (System.init m dev) r
    (lastMove t.rc.dm.delivered = velocity t.rc ↔ ¬StopLost (System.init m dev) r) ∧
    ((∀ i, sticks t.rc.cmd.ch i = 0) →
      (lastMove t.rc.dm.delivered = 0 ↔ ¬StopLost (System.init m dev) r)) := by
  rcases List.eq_nil_or_concat r with rfl | ⟨r, ⟨⟨rx, up⟩, t⟩, rfl⟩
  · simp at hup
  · rw [List.concat_eq_append] at *
    obtain rfl : up = true := by simpa using hup
    obtain ⟨hr', hp, -⟩ := isRun_append.mp hr
    have hs := (restUntold_iff hr').1
    rw [← (restUntold_iff hr).2, final_append, final_cons, final_nil]
    have hfirst : lastMove t.rc.dm.delivered = velocity t.rc ↔ ¬RestUntold t := by
      have h := lastMove_up hs hp
      split_ifs at h with hrest
      · simp [RestUntold, hrest.2]
      · simp [RestUntold, h]
    refine ⟨hfirst, fun hc => ?_⟩
    have hzero : velocity t.rc = 0 := by
      rw [Pass.rc hp] at hc ⊢
      rw [react_ch] at hc
      exact velocity_centred hs hc
    rwa [hzero] at hfirst

/-- The run over a list of link states. -/
def linkRun (D : Device δ) : List Bool → System δ → List ((Option Channels × Bool) × System δ)
  | [], _ => []
  | up :: ups, s =>
      match mainPass D (fun _ => up) 2 s with
      | none => []
      | some (rx, t) => ((rx, up), t) :: linkRun D ups t

lemma linkRun_isRun (D : Device δ) :
    ∀ (ups : List Bool) (s : System δ), IsRun (LinkPass D) s (linkRun D ups s)
  | [], _ => trivial
  | up :: ups, s => by
      rw [linkRun]
      split
      · trivial
      · rename_i rx t hp
        exact ⟨⟨2, hp⟩, linkRun_isRun D ups t⟩

/-- A lost stop is forgotten once the robot moves again, and the next one is delivered. -/
theorem stop_delivered_iff_resumed :
    let s₀ := System.init Memory.centred 0
    let r := linkRun (exactLine (script [centred, forward, centred, forward]))
      [true, false, true, true] s₀
    ¬StopLost s₀ r :=
  (stop_delivered_iff _ _ _ _ (linkRun_isRun _ _ _) (by decide +kernel)).1.mp (by decide +kernel)

/-- Forward with the link up, centred with the link down, centred with the link up again: the
robot was last told to move forward. -/
theorem stop_lost : ¬∀ (δ : Type) (D : Device δ) (m : Memory) (dev : δ)
    (r : List ((Option Channels × Bool) × System δ)), IsRun (LinkPass D) (System.init m dev) r →
    IsRun (fun _ l t => l.2 = true → lastMove t.rc.dm.delivered = velocity t.rc)
      (System.init m dev) r := by
  intro h
  have hbad := h ℕ _ Memory.centred 0 _
    (linkRun_isRun (exactLine (script [centred, forward])) [true, false, true] _)
  exact absurd hbad (by decide +kernel)

end SbusRemote
