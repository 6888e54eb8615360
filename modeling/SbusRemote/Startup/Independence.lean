import SbusRemote.Align.Cursor
import SbusRemote.Stance.Stutter

/-!
# What uninitialised channels can tell the robot

No constructor sets `_CH` and `_CHBuff`.  The first pass compares the vector it works on with
`_CHBuff`, and if its reception is rejected that vector is `_CH` itself.  After one pass both
arrays hold the vector worked on, so whatever they held before can only show in the first pass.

* `Alike` — two control states that every later pass treats alike; `react_alike`.
* `Quiet` — the vectors on which no old contents make an edge that commands anything
  (`quiet_iff`).
* `same_requests_iff` — what was in memory never shows exactly when the first reception, if
  there is one, is a frame with a quiet vector.
-/

namespace SbusRemote

open ByteLine Lts

/-- Two control states that agree on everything a request depends on, and on the requests so far. -/
structure Alike (a b : RControl) : Prop where
  view : view a = view b
  ot : a.ot = b.ot
  issued : a.dm.issued = b.dm.issued

/-! ## Later passes -/

lemma passCommand_view (rc : RControl) (l : Label) : passCommand rc l
    = (selectCommand ((view rc).keys (l.rx.getD (view rc).ch)) (view rc).standL .none).1 := rfl

/-- The motion requests of a pass depend on the filter and on the vector worked on. -/
lemma motion_congr {a b : RControl} {l l' : Label} (ha : a.Settled) (hb : b.Settled)
    (hot : a.ot = b.ot) (hv : l.rx.getD a.cmd.ch = l'.rx.getD b.cmd.ch) :
    moves (responding a l) = moves (responding b l') ∧
      eulers (responding a l) = eulers (responding b l') := by
  have hf : ∀ i, filtered (responding a l) i = filtered (responding b l') i := by
    intro i
    rw [filtered_responding, filtered_responding, hot, hv]
  have hlx : (responding a l).prlx = (responding b l').prlx :=
    ha.prlx.trans ((congrFun hot 0).trans hb.prlx.symm)
  have hly : (responding a l).prly = (responding b l').prly :=
    ha.prly.trans ((congrFun hot 1).trans hb.prly.symm)
  have hrx : (responding a l).prrx = (responding b l').prrx :=
    ha.prrx.trans ((congrFun hot 2).trans hb.prrx.symm)
  have hry : (responding a l).prry = (responding b l').prry :=
    ha.prry.trans ((congrFun hot 3).trans hb.prry.symm)
  constructor
  · simp only [moves, hf, hlx, hly, hry]
  · simp only [eulers, hf, hrx]

/-- **A pass keeps two states alike** when it receives the same. -/
theorem react_alike {a b : RControl} {l l' : Label} (ha : a.Settled) (hb : b.Settled)
    (h : Alike a b) (hrx : l.rx = l'.rx) : Alike (react a l) (react b l') := by
  have hch : a.cmd.ch = b.cmd.ch := congrArg DiscreteView.ch h.view
  have hv : l.rx.getD a.cmd.ch = l'.rx.getD b.cmd.ch := by rw [hrx, hch]
  constructor
  · rw [view_react l ha, view_react l' hb, h.view, hrx]
  · funext i
    rw [react_ot, react_ot, h.ot, hv]
  · obtain ⟨hm, he⟩ := motion_congr ha hb h.ot hv
    rw [react_issued, react_issued, h.issued, passRequests_eq l ha, passRequests_eq l' hb,
      passCommand_view, passCommand_view, h.view, hrx, hm, he]

/-- States of the main loop at the same place of the line, alike in control. -/
structure InTandem (s s' : System ℕ) : Prop where
  line : s.line = s'.line
  dev : s.dev = s'.dev
  settled : s.rc.Settled
  settled' : s'.rc.Settled
  alike : Alike s.rc s'.rc

lemma inTandem_pass {D : Device ℕ} {s s' t t' : System ℕ} {l l' : Label} (hp : Pass D s l t)
    (hp' : Pass D s' l' t') (h : InTandem s s') : InTandem t t' := by
  obtain ⟨hrx, hline, hdev⟩ := hp.line_unique hp' h.line h.dev
  refine ⟨hline, hdev, ?_, ?_, ?_⟩
  · rw [hp.rc]
    exact react_settled l h.settled
  · rw [hp'.rc]
    exact react_settled l' h.settled'
  · rw [hp.rc, hp'.rc]
    exact react_alike h.settled h.settled' h.alike hrx

/-! ## The first pass -/

/-- No edge on the vector commands anything from a fresh handle, whatever it is compared with:
with `L2` held, `A`, `B` and `C` are up; with neither shoulder key held, the start switch is in
its centre. -/
structure Quiet (v : Channels) : Prop where
  low : (v 4).toNat < 500 → (v 7).toNat ≤ 1060 ∧ (v 8).toNat ≤ 1060 ∧ (v 9).toNat ≤ 1060
  middle : 500 ≤ (v 4).toNat → (v 4).toNat ≤ 1500 → (v 12).toNat = 992

/-- Lying down, a command needs `L2` and one of `A`, `B`, `C`, or neither shoulder key and the
start switch. -/
lemma selectCommand_lying (key : Key) : (selectCommand key false .none).1 = .none ↔
    (key.l2 = true → key.a = false ∧ key.b = false ∧ key.c = false) ∧
    (key.l2 = false → key.l1 = false → key.start = false ∧ key.startRst = false) := by
  obtain ⟨a, b, c, d, l1, l2, r1, r2, start, startx2, startRst, select, m⟩ := key
  simp only [selectCommand]
  cases l2 <;> cases l1 <;> cases a <;> cases b <;> cases c <;> cases start <;> cases startRst <;>
    simp

lemma shoulderLow_released (v : UInt16) : shoulderLow v false = true ↔ v.toNat < 500 := by
  unfold shoulderLow
  split_ifs with h <;> simp [h]

lemma shoulderHigh_released (v : UInt16) :
    shoulderHigh v false = true ↔ 500 ≤ v.toNat ∧ 1500 < v.toNat := by
  unfold shoulderHigh
  split_ifs with h h' <;> simp <;> omega

lemma buttonEdge_of_le {v : UInt16} (old : UInt16) (h : v.toNat ≤ 1060) :
    buttonEdge old v = false := by
  simp [buttonEdge, h]

lemma le_of_buttonEdge_zero {v : UInt16} (h : buttonEdge 0 v = false) : v.toNat ≤ 1060 := by
  by_contra hgt
  have hne : (0 : UInt16) ≠ v := by
    rintro rfl
    exact hgt (by decide)
  simp [buttonEdge, hne] at h
  omega

/-- **Quiet vectors.**  Just these command nothing from a fresh handle, whatever `_CHBuff` holds. -/
theorem quiet_iff (v : Channels) : Quiet v ↔ ∀ old : Channels,
    (selectCommand (readKeys old v Key.setKeyFalse) false .none).1 = .none := by
  constructor
  · intro h old
    rw [selectCommand_lying]
    constructor
    · intro hl2
      obtain ⟨ha, hb, hc⟩ := h.low ((shoulderLow_released _).mp hl2)
      exact ⟨buttonEdge_of_le _ ha, buttonEdge_of_le _ hb, buttonEdge_of_le _ hc⟩
    · intro hl2 hl1
      have hlow : ¬(v 4).toNat < 500 := fun hlt =>
        Bool.false_ne_true (hl2.symm.trans ((shoulderLow_released _).mpr hlt))
      have hhigh : ¬1500 < (v 4).toNat := fun hlt =>
        Bool.false_ne_true (hl1.symm.trans ((shoulderHigh_released _).mpr ⟨by omega, hlt⟩))
      have hmid := h.middle (by omega) (by omega)
      constructor
      · show raised _ _ = false
        simp [raised, hmid]
      · show lowered _ _ = false
        simp [lowered, hmid]
  · intro h
    constructor
    · intro hlow
      obtain ⟨ha, hb, hc⟩ := ((selectCommand_lying _).mp (h fun _ => 0)).1
        ((shoulderLow_released _).mpr hlow)
      exact ⟨le_of_buttonEdge_zero ha, le_of_buttonEdge_zero hb, le_of_buttonEdge_zero hc⟩
    · intro hlow hhigh
      have hl2 : shoulderLow (v 4) false = false := by
        rw [← Bool.not_eq_true, shoulderLow_released]
        omega
      have hl1 : shoulderHigh (v 4) false = false := by
        rw [← Bool.not_eq_true, shoulderHigh_released]
        omega
      obtain ⟨hs, hr⟩ := ((selectCommand_lying _).mp (h fun _ => 992)).2 hl2 hl1
      have hs' : raised 992 (v 12) = false := hs
      have hr' : lowered 992 (v 12) = false := hr
      simp [raised] at hs'
      simp [lowered] at hr'
      omega

lemma selectCommand_quiet {v : Channels} (hv : Quiet v) (old : Channels) :
    selectCommand (readKeys old v Key.setKeyFalse) false .none = (.none, false) := by
  have hc := (quiet_iff v).mp hv old
  have he := selectCommand_effect (readKeys old v Key.setKeyFalse) false
  rw [hc] at he
  generalize hb : (selectCommand (readKeys old v Key.setKeyFalse) false .none).2 = b at he
  cases he with
  | idle => exact Prod.ext hc hb

/-- A first pass that accepts a quiet vector ends alike, whatever was in memory. -/
lemma first_alike {m m' : Memory} {v : Channels} (hv : Quiet v) {l l' : Label}
    (hl : l.rx = some v) (hl' : l'.rx = some v) :
    Alike (react (RControl.init m) l) (react (RControl.init m') l') := by
  have hcmd : ∀ (m : Memory) (l : Label), l.rx = some v →
      passCommand (RControl.init m) l = .none := by
    intro m l hl
    rw [passCommand, passKeys, hl]
    exact (quiet_iff v).mp hv m.chBuff
  have hview : ∀ (m : Memory) (l : Label), l.rx = some v →
      view (react (RControl.init m) l) = ⟨v, v, shoulderHigh (v 4) false,
        shoulderLow (v 4) false, false, []⟩ := by
    intro m l hl
    have hsel : selectCommand ((view (RControl.init m)).keys v)
        (view (RControl.init m)).standL .none = (.none, false) := selectCommand_quiet hv m.chBuff
    rw [view_react l (settled_init m), hl, Option.getD_some, discreteStep, hsel]
    rfl
  have hv' : l.rx.getD (RControl.init m).cmd.ch = l'.rx.getD (RControl.init m').cmd.ch := by
    rw [hl, hl', Option.getD_some, Option.getD_some]
  constructor
  · rw [hview m l hl, hview m' l' hl']
  · funext i
    rw [react_ot, react_ot, hv']
    rfl
  · obtain ⟨hm, he⟩ := motion_congr (settled_init m) (settled_init m') rfl hv'
    rw [react_issued, react_issued, passRequests_eq l (settled_init m),
      passRequests_eq l' (settled_init m'), hcmd m l hl, hcmd m' l' hl', hm, he]
    rfl

/-! ## Independence -/

/-- The memory with other channels in it. -/
def Memory.holding (m : Memory) (ch chBuff : Channels) : Memory :=
  { m with ch := ch, chBuff := chBuff }

/-- On the stream `S` two runs of one length issue the same requests, whatever `_CH` and `_CHBuff`
held at the start of each. -/
def SameRequests (S : ℕ → UInt8) (m : Memory) : Prop :=
  ∀ ch chBuff ch' chBuff' : Channels, ∀ r r' : List (Label × System ℕ),
    IsRun (Pass (exactLine S)) (System.init (m.holding ch chBuff) 0) r →
    IsRun (Pass (exactLine S)) (System.init (m.holding ch' chBuff') 0) r' →
    r.length = r'.length →
    (final (System.init (m.holding ch chBuff) 0) r).rc.dm.issued
      = (final (System.init (m.holding ch' chBuff') 0) r').rc.dm.issued

/-- The first reception, if there is one, is a frame with a quiet vector. -/
def QuietStart (S : ℕ → UInt8) (m : Memory) : Prop :=
  ∀ line q, AlignsTo (exactLine S) ((System.init m (0 : ℕ)).line, 0) (line, q) →
    IsFrame (window S q) ∧ Quiet (sbusDecode (window S q))

/-- The first pass of the main loop receives what stands where `data_align` first returns. -/
lemma Pass.first_rx {S : ℕ → UInt8} {m : Memory} {l : Label} {t : System ℕ}
    (hp : Pass (exactLine S) (System.init m 0) l t) : ∃ line q,
    AlignsTo (exactLine S) ((System.init m (0 : ℕ)).line, 0) (line, q) ∧
      (IsFrame (window S q) → l.rx = some (sbusDecode (window S q))) := by
  obtain ⟨ret, u, hu, hrx, -, -⟩ := hp.receives
  obtain ⟨line, q, ha, -⟩ := id hu
  refine ⟨line, q, ha, fun hf => ?_⟩
  obtain ⟨h', hround, hch, -⟩ := receives_frame ha hf
  obtain ⟨rfl, rfl⟩ := hu.unique hround
  rw [hrx, if_pos rfl, hch]

/-- **Quiet start, same requests.** -/
theorem same_requests_of_quiet {S : ℕ → UInt8} {m : Memory} (h : QuietStart S m) :
    SameRequests S m := by
  intro ch chBuff ch' chBuff' r r' hr hr' hlen
  cases r with
  | nil =>
      obtain rfl := List.length_eq_zero_iff.mp hlen.symm
      rfl
  | cons e r =>
      cases r' with
      | nil => exact absurd hlen (by simp)
      | cons e' r' =>
          obtain ⟨l, t⟩ := e
          obtain ⟨l', t'⟩ := e'
          obtain ⟨line, q, ha, hrx⟩ := hr.1.first_rx
          obtain ⟨hf, hq⟩ := h line q ha
          obtain ⟨hsame, hline, hdev⟩ := hr.1.line_unique hr'.1 rfl rfl
          have htandem : InTandem t t' := by
            refine ⟨hline, hdev, ?_, ?_, ?_⟩
            · rw [hr.1.rc]
              exact react_settled l (settled_init _)
            · rw [hr'.1.rc]
              exact react_settled l' (settled_init _)
            · rw [hr.1.rc, hr'.1.rc]
              exact first_alike hq (hrx hf) (hsame ▸ hrx hf)
          rw [final_cons, final_cons]
          exact (hr.2.lockstep (R := InTandem) (fun _ _ _ _ _ _ => inTandem_pass) hr'.2
            (Nat.succ.inj hlen) htandem).alike.issued

/-- With the same requests for all memories, the first passes on any two of them agree. -/
lemma SameRequests.first {S : ℕ → UInt8} {m : Memory} (h : SameRequests S m) {line : LineState}
    {q : ℕ} (ha : AlignsTo (exactLine S) ((System.init m (0 : ℕ)).line, 0) (line, q))
    (ch chBuff ch' chBuff' : Channels) : ∃ l l' : Label,
    l.rx = (if IsFrame (window S q) then some (sbusDecode (window S q)) else none) ∧
    l'.rx = (if IsFrame (window S q) then some (sbusDecode (window S q)) else none) ∧
    passRequests (RControl.init (m.holding ch chBuff)) l
      = passRequests (RControl.init (m.holding ch' chBuff')) l' := by
  have first : ∀ ch chBuff : Channels, ∃ l t,
      Pass (exactLine S) (System.init (m.holding ch chBuff) 0) l t ∧
      l.rx = if IsFrame (window S q) then some (sbusDecode (window S q)) else none := by
    intro ch chBuff
    have ha' : AlignsTo (exactLine S) ((⟨(System.init m (0 : ℕ)).line,
        (RControl.init (m.holding ch chBuff)).cmd⟩ : SbusHandle).toLineState, 0) (line, q) := ha
    by_cases hf : IsFrame (window S q)
    · obtain ⟨h', hround, hch, -⟩ := receives_frame ha' hf
      obtain ⟨t, hp, -⟩ := pass_of_receives
        (s := System.init (m.holding ch chBuff) 0) hround fun _ => true
      exact ⟨_, t, hp, by rw [if_pos rfl, if_pos hf, hch]⟩
    · obtain ⟨h', hround, -⟩ := receives_noise ha' hf
      obtain ⟨t, hp, -⟩ := pass_of_receives
        (s := System.init (m.holding ch chBuff) 0) hround fun _ => true
      exact ⟨_, t, hp, by rw [if_neg (show ¬(-1 : ℤ) = 0 by decide), if_neg hf]⟩
  obtain ⟨l, t, hp, hl⟩ := first ch chBuff
  obtain ⟨l', t', hp', hl'⟩ := first ch' chBuff'
  refine ⟨l, l', hl, hl', ?_⟩
  have hsame := h ch chBuff ch' chBuff' [(l, t)] [(l', t')] ⟨hp, trivial⟩ ⟨hp', trivial⟩ rfl
  rw [final_cons, final_nil, final_cons, final_nil, hp.rc, hp'.rc, react_issued,
    react_issued] at hsame
  exact hsame

/-- A command has a request. -/
lemma commandRequest_ne_nil {b b' : Bool} {c : UserCommand} (he : Effect b c b') (hc : c ≠ .none) :
    (commandRequest c).toList ≠ [] := by
  cases he with
  | idle => exact absurd rfl hc
  | _ => simp [commandRequest]

/-- The forward stick moves the robot from rest, centred sticks do not. -/
lemma filterStep_zero_centred : ∀ i : Fin 4, filterStep 0 (sticks centred i) = 0 := by
  decide +kernel

lemma filterStep_zero_forward : filterStep 0 (sticks forward 0) ≠ 0 := by
  decide +kernel

/-- A rejected first reception lets `_CH` drive the robot. -/
lemma SameRequests.isFrame {S : ℕ → UInt8} {m : Memory} (h : SameRequests S m) {line : LineState}
    {q : ℕ} (ha : AlignsTo (exactLine S) ((System.init m (0 : ℕ)).line, 0) (line, q)) :
    IsFrame (window S q) := by
  by_contra hf
  obtain ⟨l, l', hl, hl', hsame⟩ := h.first ha centred centred forward forward
  rw [if_neg hf] at hl hl'
  have hrest : ∀ i, filtered (responding (RControl.init (m.holding centred centred)) l) i = 0 := by
    intro i
    rw [filtered_responding, hl, Option.getD_none]
    exact filterStep_zero_centred i
  have hmove : filtered (responding (RControl.init (m.holding forward forward)) l') 0 ≠ 0 := by
    rw [filtered_responding, hl', Option.getD_none]
    exact filterStep_zero_forward
  have hmem := move_mem (fun h0 => hmove h0.1)
  rw [← hsame, mem_motion rfl] at hmem
  have hzero : filtered (responding (RControl.init (m.holding forward forward)) l') 0 = 0 := by
    rcases hmem with hq | hq
    · have := mem_moves hq
      simp only [moveRequest, hrest, Request.mk.injEq, Parameter.xyz.injEq] at this
      exact this.2.2.1
    · have := mem_eulers hq
      simp [moveRequest, eulerRequest] at this
  exact hmove hzero

/-- An edge against `_CHBuff` on the first vector is a command. -/
lemma SameRequests.quiet {S : ℕ → UInt8} {m : Memory} (h : SameRequests S m) {line : LineState}
    {q : ℕ} (ha : AlignsTo (exactLine S) ((System.init m (0 : ℕ)).line, 0) (line, q)) :
    Quiet (sbusDecode (window S q)) := by
  have hf := h.isFrame ha
  rw [quiet_iff]
  intro old
  by_contra hne
  obtain ⟨l, l', hl, hl', hsame⟩ := h.first ha centred old centred (sbusDecode (window S q))
  rw [if_pos hf] at hl hl'
  have hcmd : passCommand (RControl.init (m.holding centred old)) l ≠ .none := by
    rw [passCommand, passKeys, hl]
    exact hne
  have hcmd' : passCommand (RControl.init (m.holding centred (sbusDecode (window S q)))) l'
      = .none := by
    have hrep := selectCommand_repeat (sbusDecode (window S q)) Key.setKeyFalse false .none
    rw [passCommand, passKeys, hl']
    exact congrArg Prod.fst hrep
  obtain ⟨hm, he⟩ := motion_congr (settled_init (m.holding centred old))
    (settled_init (m.holding centred (sbusDecode (window S q)))) rfl
    (show l.rx.getD _ = l'.rx.getD _ by rw [hl, hl', Option.getD_some, Option.getD_some])
  rw [passRequests_eq l (settled_init _), passRequests_eq l' (settled_init _), hcmd', hm,
    he] at hsame
  have hnil := List.append_cancel_right (List.append_cancel_right hsame)
  exact commandRequest_ne_nil (pass_effect l (settled_init _)) hcmd hnil

/-- **When uninitialised memory does not show.**  On exact reads of a stream the requests of the
main loop are independent of what `_CH` and `_CHBuff` held at the start if and only if the first
reception, if `data_align` ever gets there, is a frame with a quiet vector. -/
theorem same_requests_iff (S : ℕ → UInt8) (m : Memory) : SameRequests S m ↔ QuietStart S m :=
  ⟨fun h _ _ ha => ⟨h.isFrame ha, h.quiet ha⟩, same_requests_of_quiet⟩

/-- The first frame received has `L2` held and `A` down: it is a stand up unless `_CHBuff` happens
to hold the same channel 7. -/
theorem memory_shows : ¬∀ (S : ℕ → UInt8) (m : Memory), SameRequests S m := by
  intro h
  have hsame := h (script [centred, pressed true 7]) Memory.centred centred centred
    centred (pressed true 7)
    (executed _ [fun _ => true] _) (executed _ [fun _ => true] _)
    (executed_isRun (by decide +kernel)) (executed_isRun (by decide +kernel)) (by decide +kernel)
  exact absurd hsame (by decide +kernel)

end SbusRemote
