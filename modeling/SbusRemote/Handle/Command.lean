import SbusRemote.Handle.Msg

/-!
# `channel_command`: from a channel vector to sticks, keys and a user command

The members of `SbusHandle` that `channel_command` works on, and the function itself, cut where
the source has blank lines: the sticks (`readSticks`), the keys (`readKeys`) and the command
chain (`selectCommand`).

Everything later modules need to know about the chain is `selectCommand_effect`: what can be
commanded in which stance, and the stance afterwards.  Every command rests on an edge of a
button, so `selectCommand_idle` — without an edge there is no command — is what makes a repeated
vector silent.
-/

namespace SbusRemote

/-- `uint16_t _CH[16]`. -/
abbrev Channels := Fin 16 → UInt16

/-- The members of `SbusHandle` that `channel_command` works on. -/
structure CommandState where
  userCmd : UserCommand
  handleCmd : Handle
  lock : Bool
  ch : Channels
  chBuff : Channels
  standL : Bool

/-! ## Sticks -/

/-- The value of channel `i`, as the `int` it is promoted to. -/
def channel (ch : Channels) (i : Fin 16) : ℤ := (ch i).toNat

/-- `_handleCmd.ry`, the yaw stick. -/
def stickRy (ch : Channels) : ℚ := normalize (channel ch 0) 2.5 (-2.5) 272 1712

/-- `_handleCmd.rx`, the pitch stick. -/
def stickRx (ch : Channels) : ℚ := normalize (channel ch 1) (-0.5) 0.5 272 1712

/-- `_handleCmd.lx`, the forward stick. -/
def stickLx (ch : Channels) : ℚ := normalize (channel ch 2) (-0.9) 1.0 272 1712

/-- `_handleCmd.ly`, the sideways stick. -/
def stickLy (ch : Channels) : ℚ := normalize (channel ch 13) 0.8 (-0.8) 272 1712

/-! ## Keys -/

/-- A button channel is down and differs from the last vector's. -/
def buttonEdge (old new : UInt16) : Bool := old ≠ new && 1060 < new.toNat

/-- A switch channel left its centre upwards. -/
def raised (old new : UInt16) : Bool := old.toNat = 992 && 992 < new.toNat

/-- A switch channel left its centre downwards. -/
def lowered (old new : UInt16) : Bool := old.toNat = 992 && new.toNat < 992

/-- A shoulder switch: the key of its upper position, given both keys before. -/
def shoulderHigh (v : UInt16) (high : Bool) : Bool :=
  if v.toNat < 500 then high else if 1500 < v.toNat then true else false

/-- A shoulder switch: the key of its lower position. -/
def shoulderLow (v : UInt16) (low : Bool) : Bool :=
  if v.toNat < 500 then true else if 1500 < v.toNat then low else false

/-- The key assignments of `channel_command`.  The shoulder keys keep their value on the branches
that do not assign them, so the keys before are an input. -/
def readKeys (chBuff ch : Channels) (key : Key) : Key where
  a := buttonEdge (chBuff 7) (ch 7)
  b := buttonEdge (chBuff 8) (ch 8)
  c := buttonEdge (chBuff 9) (ch 9)
  d := buttonEdge (chBuff 10) (ch 10)
  l1 := shoulderHigh (ch 4) key.l1
  l2 := shoulderLow (ch 4) key.l2
  r1 := shoulderHigh (ch 5) key.r1
  r2 := shoulderLow (ch 5) key.r2
  m := if (ch 6).toNat < 500 then 0 else if 1500 < (ch 6).toNat then 2 else 1
  select := raised (chBuff 11) (ch 11)
  start := raised (chBuff 12) (ch 12)
  startx2 := chBuff 12 ≠ ch 12 && (ch 12).toNat = 1712
  startRst := lowered (chBuff 12) (ch 12)

/-! ## The command chain -/

/-- The `if`/`else if` chain of `channel_command`: the user command and `stand_l` afterwards. -/
def selectCommand (key : Key) (standL : Bool) (userCmd : UserCommand) : UserCommand × Bool :=
  if key.a && key.l2 then
    if !standL then (.l2A2, true) else (.l2A1, false)
  else if !key.l2 && !key.l1 && key.start then (.mode2, standL)
  else if key.l2 && key.b && !standL then (.l2B, standL)
  else if !key.l2 && !key.l1 && standL && key.d then (.avoidOn, standL)
  else if !key.l2 && !key.l1 && standL && key.c then (.avoidOff, standL)
  else if key.l2 && key.c then (.l2C, standL)
  else if !key.l2 && !key.l1 && key.startRst then (.stopMove, standL)
  else (userCmd, standL)

/-- `SbusHandle::channel_command`. -/
def channelCommand (s : CommandState) : CommandState :=
  let key := readKeys s.chBuff s.ch s.handleCmd.key
  { s with
    handleCmd :=
      { ry := stickRy s.ch, rx := stickRx s.ch, lx := stickLx s.ch, ly := stickLy s.ch, key := key }
    lock := if (s.chBuff 12).toNat = 272 then false else s.lock
    userCmd := (selectCommand key s.standL s.userCmd).1
    standL := (selectCommand key s.standL s.userCmd).2
    chBuff := s.ch }

/-! ## What the chain can do -/

/-- What can be commanded with `stand_l` as the first argument, and `stand_l` afterwards. -/
inductive Effect : Bool → UserCommand → Bool → Prop
  | standUp : Effect false .l2A2 true
  | lieDown : Effect true .l2A1 false
  | damp : Effect false .l2B false
  | avoidOn : Effect true .avoidOn true
  | avoidOff : Effect true .avoidOff true
  | recover (b : Bool) : Effect b .l2C b
  | mode (b : Bool) : Effect b .mode2 b
  | stop (b : Bool) : Effect b .stopMove b
  | idle (b : Bool) : Effect b .none b

/-- **The chain, once and for all.**  Started without a pending command it has one of the nine
effects. -/
theorem selectCommand_effect (key : Key) (standL : Bool) :
    Effect standL (selectCommand key standL .none).1 (selectCommand key standL .none).2 := by
  unfold selectCommand
  split_ifs with hA hS hM hB hOn hOff hC hR
  · rw [show standL = false by simpa using hS]
    exact .standUp
  · rw [show standL = true by simpa using hS]
    exact .lieDown
  · exact .mode _
  · rw [show standL = false by simpa using (Bool.and_eq_true_iff.mp hB).2]
    exact .damp
  · simp only [Bool.and_eq_true] at hOn
    rw [hOn.1.2]
    exact .avoidOn
  · simp only [Bool.and_eq_true] at hOff
    rw [hOff.1.2]
    exact .avoidOff
  · exact .recover _
  · exact .stop _
  · exact .idle _

/-- The guard of the `L2_C` branch: `L2` held and `C` pressed, while neither the stance branch
nor the damping branch before it is taken. -/
def recoverPress (key : Key) (standL : Bool) : Bool :=
  key.l2 && key.c && !key.a && !(key.b && !standL)

/-- `L2_C` is commanded exactly when its branch is reached. -/
lemma selectCommand_eq_l2C (key : Key) (standL : Bool) :
    (selectCommand key standL .none).1 = .l2C ↔ recoverPress key standL = true := by
  cases h2 : key.l2 with
  | false =>
      simp only [selectCommand, recoverPress, h2]
      split_ifs <;> simp_all
  | true =>
      simp only [selectCommand, recoverPress, h2]
      cases key.a <;> cases key.b <;> cases key.c <;> cases standL <;> simp

/-- The guard of the stance branch: `A` pressed with `L2` held. -/
def stancePress (key : Key) : Bool := key.a && key.l2

/-- Without an edge on a button or on the start switch there is nothing to command. -/
lemma selectCommand_idle {key : Key} (ha : key.a = false) (hb : key.b = false)
    (hc : key.c = false) (hd : key.d = false) (hs : key.start = false)
    (hr : key.startRst = false) (standL : Bool) (userCmd : UserCommand) :
    selectCommand key standL userCmd = (userCmd, standL) := by
  simp [selectCommand, ha, hb, hc, hd, hs, hr]

/-! ## A vector read twice -/

@[simp] lemma buttonEdge_self (v : UInt16) : buttonEdge v v = false := by simp [buttonEdge]

@[simp] lemma raised_self (v : UInt16) : raised v v = false := by simp [raised]; omega

@[simp] lemma lowered_self (v : UInt16) : lowered v v = false := by simp [lowered]; omega

@[simp] lemma shoulderHigh_idem (v : UInt16) (b : Bool) :
    shoulderHigh v (shoulderHigh v b) = shoulderHigh v b := by
  unfold shoulderHigh
  split_ifs <;> rfl

@[simp] lemma shoulderLow_idem (v : UInt16) (b : Bool) :
    shoulderLow v (shoulderLow v b) = shoulderLow v b := by
  unfold shoulderLow
  split_ifs <;> rfl

/-- A vector equal to the one before commands nothing and leaves the stance alone. -/
lemma selectCommand_repeat (ch : Channels) (key : Key) (standL : Bool) (userCmd : UserCommand) :
    selectCommand (readKeys ch ch key) standL userCmd = (userCmd, standL) :=
  selectCommand_idle (buttonEdge_self _) (buttonEdge_self _) (buttonEdge_self _)
    (buttonEdge_self _) (raised_self _) (lowered_self _) standL userCmd

end SbusRemote
