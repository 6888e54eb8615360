import SbusRemote.Control.MainLoop

/-!
# The stance protocol

`stand_l` is the program's only memory of whether the robot stands.  It is flipped by the same
branch that commands a stance, so it summarises the stance requests *issued*
(`stance_protocol`): they alternate, starting with a stand up, and the obstacle commands come
only while the robot was last told to stand.

It does not summarise the requests *delivered*.  `WriteMessage` reports a dropped request by
returning `false`, which `dds_vuiApiReq` discards, and there is no retry: the flag agrees with
what the robot received exactly as long as no stance request has been dropped
(`stance_delivered_iff`).
-/

namespace SbusRemote

open ByteLine Lts

variable {δ : Type}

/-! ## The stance requests of a log -/

/-- A stand up or a lie down. -/
def isStance (q : Request) : Bool := q.topic = .sport && (q.apiId = 1004 || q.apiId = 1005)

/-- The stance requests of a log, as their `api_id`s. -/
def stances (log : List Request) : List ℕ := (log.filter isStance).map Request.apiId

/-- An obstacle command. -/
def isAvoid (q : Request) : Bool := q.topic = .obst && q.apiId = 1001

/-- `n` stance commands in turn: stand up, lie down, stand up, … -/
def alternation : ℕ → List ℕ
  | 0 => []
  | n + 1 => alternation n ++ [if n % 2 = 0 then 1004 else 1005]

@[simp] lemma length_alternation (n : ℕ) : (alternation n).length = n := by
  induction n with
  | zero => rfl
  | succ n ih => simp [alternation, ih]

/-- The last of an alternation is a stand up exactly when it has an odd length. -/
lemma alternation_getLast? (n : ℕ) : (alternation n).getLast? = some 1004 ↔ n % 2 = 1 := by
  cases n with
  | zero => simp [alternation]
  | succ n =>
      rw [alternation, List.getLast?_append]
      split_ifs with h
      · simp
        omega
      · simp
        omega

lemma stances_append (log log' : List Request) :
    stances (log ++ log') = stances log ++ stances log' := by
  simp [stances]

lemma stances_filter_singleton (q : Request) (p : Request → Bool) :
    stances ([q].filter p) = if p q = true ∧ isStance q = true then [q.apiId] else [] := by
  cases hp : p q <;> cases hs : isStance q <;> simp [stances, hp, hs]

/-- What a user command adds to the stance requests. -/
lemma stances_commandRequest (c : UserCommand) : stances (commandRequest c).toList
    = if c = .l2A2 then [1004] else if c = .l2A1 then [1005] else [] := by
  cases c <;> rfl

lemma stances_filter_passRequests {rc : RControl} (l : Label) (h : rc.Settled)
    (p : Request → Bool) : stances ((passRequests rc l).filter p)
      = stances ((commandRequest (passCommand rc l)).toList.filter p) := by
  have hf := filter_passRequests l h (p := fun q => isStance q && p q)
    (fun _ _ _ => rfl) (fun _ => rfl)
  simp only [stances, List.filter_filter]
  rw [hf]

lemma stances_passRequests {rc : RControl} (l : Label) (h : rc.Settled) :
    stances (passRequests rc l)
      = if passCommand rc l = .l2A2 then [1004] else if passCommand rc l = .l2A1 then [1005]
        else [] := by
  have hf := stances_filter_passRequests l h fun _ => true
  simp only [List.filter_true] at hf
  rw [hf, stances_commandRequest]

/-! ## What was issued -/

/-- **The flag is the parity of the stance requests issued.** -/
structure StanceIssued (rc : RControl) : Prop where
  alternate : stances rc.dm.issued = alternation (stances rc.dm.issued).length
  flag : rc.cmd.standL = true ↔ (stances rc.dm.issued).length % 2 = 1

lemma stanceIssued_init (m : Memory) : StanceIssued (RControl.init m) :=
  ⟨rfl, by simp [RControl.init, stances]⟩

/-- One pass keeps the parity: the command issued is the next of the alternation exactly when the
flag flips. -/
theorem stanceIssued_react {rc : RControl} (l : Label) (h : rc.Settled) (hi : StanceIssued rc) :
    StanceIssued (react rc l) := by
  obtain ⟨halt, hflag⟩ := hi
  have hnew := stances_passRequests l h
  have heff := pass_effect l h
  -- a pass that commands no stance adds nothing and keeps the flag
  have quiet : stances (passRequests rc l) = [] →
      (react rc l).cmd.standL = rc.cmd.standL → StanceIssued (react rc l) := by
    intro hnil hsame
    have hlog : stances (react rc l).dm.issued = stances rc.dm.issued := by
      rw [react_issued, stances_append, hnil, List.append_nil]
    exact ⟨by rw [hlog]; exact halt, by rw [hlog, hsame]; exact hflag⟩
  -- a pass that commands the next stance of the alternation flips it
  have next : stances (passRequests rc l)
        = [if (stances rc.dm.issued).length % 2 = 0 then 1004 else 1005] →
      (react rc l).cmd.standL = !rc.cmd.standL → StanceIssued (react rc l) := by
    intro hone hflip
    have hlog : stances (react rc l).dm.issued
        = alternation ((stances rc.dm.issued).length + 1) := by
      rw [react_issued, stances_append, hone, alternation, ← halt]
    refine ⟨by rw [hlog, length_alternation], ?_⟩
    rw [hlog, length_alternation, hflip, Bool.not_eq_true', ← Bool.not_eq_true, hflag]
    omega
  generalize hc : passCommand rc l = c at heff hnew
  generalize hs : rc.cmd.standL = b at heff
  generalize ht : (react rc l).cmd.standL = b' at heff
  rw [hs] at hflag
  cases heff with
  | standUp =>
      refine next ?_ (by rw [ht, hs]; rfl)
      rw [hnew, if_pos rfl, if_pos]
      have : ¬(stances rc.dm.issued).length % 2 = 1 := fun h => by simpa using hflag.mpr h
      omega
  | lieDown =>
      refine next ?_ (by rw [ht, hs]; rfl)
      rw [hnew, if_neg (by decide), if_pos rfl, if_neg]
      have := hflag.mp rfl
      omega
  | damp => exact quiet hnew (by rw [ht, hs])
  | avoidOn => exact quiet hnew (by rw [ht, hs])
  | avoidOff => exact quiet hnew (by rw [ht, hs])
  | recover => exact quiet hnew (by rw [ht, hs])
  | mode => exact quiet hnew (by rw [ht, hs])
  | stop => exact quiet hnew (by rw [ht, hs])
  | idle => exact quiet hnew (by rw [ht, hs])

/-- An obstacle command is only issued while the flag is set. -/
lemma isAvoid_passRequests {rc : RControl} (l : Label) (h : rc.Settled) {q : Request}
    (hq : q ∈ passRequests rc l) (ha : isAvoid q = true) : rc.cmd.standL = true := by
  have hf : q ∈ (passRequests rc l).filter isAvoid := List.mem_filter.mpr ⟨hq, ha⟩
  rw [filter_passRequests l h (fun _ _ _ => rfl) (fun _ => rfl)] at hf
  have heff := pass_effect l h
  generalize passCommand rc l = c at heff hf
  generalize hs : rc.cmd.standL = b at heff
  generalize (react rc l).cmd.standL = b' at heff
  cases heff with
  | avoidOn => rfl
  | avoidOff => rfl
  | _ => simp [commandRequest, isAvoid, lieDownRequest, standUpRequest] at hf

/-- **The stance protocol.**  In every run of the main loop from a fresh handle, whatever the
uninitialised memory, the receptions and the link: the stance requests issued alternate, starting
with a stand up; `stand_l` is set exactly when the last of them was a stand up; and an obstacle
command is issued only in a pass before which the last of them was a stand up. -/
theorem stance_protocol (D : Device δ) (m : Memory) (dev : δ) (r : List (Label × System δ))
    (hr : IsRun (Pass D) (System.init m dev) r) :
    let s := final (System.init m dev) r
    stances s.rc.dm.issued = alternation (stances s.rc.dm.issued).length ∧
    (s.rc.cmd.standL = true ↔ (stances s.rc.dm.issued).getLast? = some 1004) ∧
    IsRun (fun s _ t => ∀ q ∈ issuedIn s.rc t.rc, isAvoid q = true →
      (stances s.rc.dm.issued).getLast? = some 1004) (System.init m dev) r := by
  have last : ∀ rc : RControl, StanceIssued rc →
      (rc.cmd.standL = true ↔ (stances rc.dm.issued).getLast? = some 1004) := by
    intro rc hi
    rw [hi.alternate, alternation_getLast?, hi.flag]
  have hend := (Pass.invariant (I := StanceIssued) (fun _ l => stanceIssued_react l) hr
    (settled_init m) (stanceIssued_init m)).2
  refine ⟨hend.alternate, last _ hend, ?_⟩
  have hsteps := Pass.attach (fun _ _ _ hp => hp.rc) (fun _ l _ _ => stanceIssued_react l) hr
    (settled_init m) (stanceIssued_init m)
  refine hsteps.mono fun s l t h q hq ha => ?_
  rw [h.1.issuedIn] at hq
  exact (last _ h.2.2).mp (isAvoid_passRequests l h.2.1 hq ha)

/-- A stand up, an obstacle command and a lie down. -/
theorem stance_protocol_presses :
    let s₀ := System.init Memory.centred 0
    let r := scenario [centred, pressed true 7, pressed false 10, pressed true 7]
      (List.replicate 3 fun _ => true)
    (final s₀ r).rc.dm.issued.map Request.apiId = [1004, 1001, 1005] ∧
    stances (final s₀ r).rc.dm.issued
      = alternation (stances (final s₀ r).rc.dm.issued).length ∧
    ((final s₀ r).rc.cmd.standL = true ↔
      (stances (final s₀ r).rc.dm.issued).getLast? = some 1004) ∧
    IsRun (fun s _ t => ∀ q ∈ issuedIn s.rc t.rc, isAvoid q = true →
      (stances s.rc.dm.issued).getLast? = some 1004) s₀ r :=
  ⟨by decide +kernel, stance_protocol _ _ _ _ (executed_isRun (by decide +kernel))⟩

/-! ## What was delivered -/

/-- The flag agrees with the last stance request that reached the robot. -/
def StanceDelivered (rc : RControl) : Prop :=
  rc.cmd.standL = true ↔ (stances rc.dm.delivered).getLast? = some 1004

/-- Every stance request of the pass gets through. -/
def StanceWritten (rc : RControl) (l : Label) : Prop :=
  ∀ q ∈ passRequests rc l, isStance q = true → l.link q = true

/-- The stance requests of a pass are those of its command. -/
lemma stanceWritten_iff {rc : RControl} (l : Label) (h : rc.Settled) :
    StanceWritten rc l ↔
      ∀ q ∈ (commandRequest (passCommand rc l)).toList, isStance q = true → l.link q = true := by
  have hf := filter_passRequests l h (p := isStance) (fun _ _ _ => rfl) (fun _ => rfl)
  have hmem : ∀ q, (q ∈ passRequests rc l ∧ isStance q = true) ↔
      (q ∈ (commandRequest (passCommand rc l)).toList ∧ isStance q = true) := by
    intro q
    rw [← List.mem_filter, ← List.mem_filter, hf]
  constructor
  · intro hw q hq hst
    exact hw q ((hmem q).mpr ⟨hq, hst⟩).1 hst
  · intro hw q hq hst
    exact hw q ((hmem q).mp ⟨hq, hst⟩).1 hst

lemma forall_singleton_stance {q : Request} (hq : isStance q = true) {p : Request → Bool} :
    (∀ q' ∈ [q], isStance q' = true → p q' = true) ↔ p q = true := by
  simp [hq]

/-- One pass: where flag and delivery agree, they agree afterwards exactly if the pass dropped no
stance request.  A dropped one flips the flag alone. -/
theorem stanceDelivered_react {rc : RControl} (l : Label) (h : rc.Settled)
    (hi : StanceDelivered rc) : StanceDelivered (react rc l) ↔ StanceWritten rc l := by
  rw [stanceWritten_iff l h, StanceDelivered, react_delivered l h, stances_append,
    stances_filter_passRequests l h]
  have heff := pass_effect l h
  rw [StanceDelivered] at hi
  generalize passCommand rc l = c at heff ⊢
  generalize rc.cmd.standL = b at heff hi
  generalize (react rc l).cmd.standL = b' at heff ⊢
  cases heff with
  | standUp =>
      show (true = true ↔ (_ ++ stances ([standUpRequest].filter l.link)).getLast? = _) ↔
        ∀ q ∈ [standUpRequest], isStance q = true → l.link q = true
      rw [stances_filter_singleton, forall_singleton_stance rfl]
      cases l.link standUpRequest
      · rw [if_neg (by simp), List.append_nil, ← hi]
        simp
      · rw [if_pos ⟨rfl, rfl⟩]
        simp [standUpRequest]
  | lieDown =>
      show (false = true ↔ (_ ++ stances ([lieDownRequest].filter l.link)).getLast? = _) ↔
        ∀ q ∈ [lieDownRequest], isStance q = true → l.link q = true
      rw [stances_filter_singleton, forall_singleton_stance rfl]
      cases l.link lieDownRequest
      · rw [if_neg (by simp), List.append_nil, ← hi]
        simp
      · rw [if_pos ⟨rfl, rfl⟩]
        simp [lieDownRequest]
  | idle =>
      rw [show (commandRequest .none).toList = [] from rfl, List.filter_nil,
        show stances [] = [] from rfl, List.append_nil]
      simpa using hi
  | _ =>
      simp only [commandRequest, Option.toList]
      rw [stances_filter_singleton, if_neg (by simp [isStance]), List.append_nil]
      simpa [isStance] using hi

/-- **Agreement ends with the first dropped stance request.**  In every run of the main loop from
a fresh handle: `stand_l` is set exactly when the last delivered stance request is a stand up,
after every pass, if and only if every stance request issued in the run was delivered. -/
theorem stance_delivered_iff (D : Device δ) (m : Memory) (dev : δ)
    (r : List (Label × System δ)) (hr : IsRun (Pass D) (System.init m dev) r) :
    IsRun (fun _ _ t => t.rc.cmd.standL = true ↔
      (stances t.rc.dm.delivered).getLast? = some 1004) (System.init m dev) r ↔
    IsRun (fun s _ t => ∀ q ∈ issuedIn s.rc t.rc, isStance q = true → q ∈ deliveredIn s.rc t.rc)
      (System.init m dev) r := by
  refine hr.iff_of_good (I := fun s => s.rc.Settled ∧ StanceDelivered s.rc) ?_ ?_
    ⟨settled_init m, by simp [StanceDelivered, System.init, RControl.init, stances]⟩
  · intro s l t hp ⟨hs, hi⟩
    rw [hp.issuedIn, hp.deliveredIn hs, hp.rc]
    refine (stanceDelivered_react l hs hi).trans ?_
    simp only [StanceWritten, List.mem_filter]
    exact ⟨fun hw q hq hst => ⟨hq, hw q hq hst⟩, fun hw q hq hst => (hw q hq hst).2⟩
  · intro s l t hp ⟨hs, _⟩ ht
    rw [hp.rc] at ht ⊢
    exact ⟨react_settled l hs, ht⟩

/-- One stand up, on a link that is down: the flag is set and the robot was told nothing. -/
theorem stance_delivered_fails : ¬∀ (δ : Type) (D : Device δ) (m : Memory) (dev : δ)
    (r : List (Label × System δ)), IsRun (Pass D) (System.init m dev) r →
    IsRun (fun _ _ t => t.rc.cmd.standL = true ↔
      (stances t.rc.dm.delivered).getLast? = some 1004) (System.init m dev) r := by
  intro h
  have hbad := h ℕ _ Memory.centred 0 (scenario [centred, pressed true 7] [fun _ => false])
    (executed_isRun (by decide +kernel))
  exact absurd hbad (by decide +kernel)

/-- Stand up delivered, lie down dropped: the agreement holds for one pass and fails in the next,
as the second request does. -/
theorem stance_delivered_iff_presses :
    let s₀ := System.init Memory.centred 0
    let r := scenario [centred, pressed true 7, centred, pressed true 7]
      [fun _ => true, fun _ => true, fun _ => false]
    ¬IsRun (fun _ _ t => t.rc.cmd.standL = true ↔
      (stances t.rc.dm.delivered).getLast? = some 1004) s₀ r := by
  intro s₀ r h
  have hw := (stance_delivered_iff _ _ _ _ (executed_isRun (by decide +kernel))).mp h
  exact absurd hw (by decide +kernel)

end SbusRemote
