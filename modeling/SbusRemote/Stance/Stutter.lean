import SbusRemote.Control.MainLoop

/-!
# Stuttering: a repeated or a rejected frame commands nothing

Every command of `channel_command` rests on an edge against `_CHBuff`, and after a pass `_CHBuff`
is `_CH`.  So a vector read again has no edges, and a rejected reception is the present vector
read again.

`DiscreteView` is what the discrete commands depend on and add to: the vector, the left shoulder
keys, the stance and the discrete requests so far.  It is a machine of its own (`view_react`), on
which reading a vector twice is reading it once (`discreteStep_again`); `Lts.foldl_collapse` then
gives `stutter_invariance`.
-/

namespace SbusRemote

open ByteLine Lts

variable {δ : Type}

/-- A request of the `switch`: `api_id` 1001 to 1006 on the sport topic, 1001 on the obstacle
topic. -/
def isDiscrete (q : Request) : Bool :=
  (q.topic = .sport && 1001 ≤ q.apiId && q.apiId ≤ 1006) || (q.topic = .obst && q.apiId = 1001)

/-- What the discrete commands depend on, and the discrete requests so far. -/
structure DiscreteView where
  ch : Channels
  chBuff : Channels
  l1 : Bool
  l2 : Bool
  standL : Bool
  log : List Request

def view (rc : RControl) : DiscreteView where
  ch := rc.cmd.ch
  chBuff := rc.cmd.chBuff
  l1 := rc.cmd.handleCmd.key.l1
  l2 := rc.cmd.handleCmd.key.l2
  standL := rc.cmd.standL
  log := rc.dm.issued.filter isDiscrete

/-- The keys of a view that reads a vector. -/
def DiscreteView.keys (w : DiscreteView) (v : Channels) : Key :=
  readKeys w.chBuff v { Key.setKeyFalse with l1 := w.l1, l2 := w.l2 }

/-- Reading one vector. -/
def discreteStep (w : DiscreteView) (v : Channels) : DiscreteView where
  ch := v
  chBuff := v
  l1 := shoulderHigh (v 4) w.l1
  l2 := shoulderLow (v 4) w.l2
  standL := (selectCommand (w.keys v) w.standL .none).2
  log := w.log ++ (commandRequest (selectCommand (w.keys v) w.standL .none).1).toList

lemma filter_isDiscrete_commandRequest (c : UserCommand) :
    (commandRequest c).toList.filter isDiscrete = (commandRequest c).toList := by
  cases c <;> rfl

/-- **A pass, seen through the view, reads the accepted vector, or the present one again.** -/
theorem view_react {rc : RControl} (l : Label) (h : rc.Settled) :
    view (react rc l) = discreteStep (view rc) (l.rx.getD (view rc).ch) := by
  -- the chain reads the shoulder keys and the edges; the other keys differ but do not matter
  have hsel : selectCommand ((view rc).keys (l.rx.getD rc.cmd.ch)) rc.cmd.standL .none
      = selectCommand (passKeys rc l) rc.cmd.standL .none := rfl
  have hstand : (react rc l).cmd.standL
      = (selectCommand (passKeys rc l) rc.cmd.standL rc.cmd.userCmd).2 := rfl
  rw [h.userCmd] at hstand
  have hlog : (react rc l).dm.issued.filter isDiscrete
      = rc.dm.issued.filter isDiscrete ++ (commandRequest (passCommand rc l)).toList := by
    rw [react_issued, List.filter_append, filter_passRequests l h (fun _ _ _ => rfl) (fun _ => rfl),
      filter_isDiscrete_commandRequest]
  show view (react rc l) = discreteStep (view rc) (l.rx.getD rc.cmd.ch)
  simp only [view, hstand, hlog, discreteStep]
  rw [← view, hsel]
  rfl

/-- **Reading a vector again changes nothing.** -/
theorem discreteStep_again (w : DiscreteView) (v : Channels) :
    discreteStep (discreteStep w v) v = discreteStep w v := by
  have hsel : selectCommand ((discreteStep w v).keys v) (discreteStep w v).standL .none
      = (.none, (discreteStep w v).standL) := selectCommand_repeat v _ _ _
  have hlog : (discreteStep (discreteStep w v) v).log = (discreteStep w v).log := by
    show _ ++ (commandRequest (selectCommand _ _ _).1).toList = _
    rw [hsel]
    exact List.append_nil _
  have hstand : (discreteStep (discreteStep w v) v).standL = (discreteStep w v).standL := by
    show (selectCommand _ _ _).2 = _
    rw [hsel]
  have hl1 : (discreteStep (discreteStep w v) v).l1 = (discreteStep w v).l1 :=
    shoulderHigh_idem _ _
  have hl2 : (discreteStep (discreteStep w v) v).l2 = (discreteStep w v).l2 :=
    shoulderLow_idem _ _
  rw [DiscreteView.mk.injEq]
  exact ⟨rfl, rfl, hl1, hl2, hstand, hlog⟩

/-- The channel vectors accepted in a run. -/
def acceptedVectors (r : List (Label × System δ)) : List Channels :=
  (r.map fun e => e.1.rx).reduceOption

/-- The view at the end of a run only depends on the distinct vectors read. -/
theorem view_final {D : Device δ} {s : System δ} {r : List (Label × System δ)}
    (hr : IsRun (Pass D) s r) (hs : s.rc.Settled)
    (hread : discreteStep (view s.rc) s.rc.cmd.ch = view s.rc) :
    view (final s r).rc
      = ((s.rc.cmd.ch :: acceptedVectors r).destutter (· ≠ ·)).foldl discreteStep (view s.rc) := by
  have hfold : view (final s r).rc
      = (r.map Prod.fst).foldl (fun w l => discreteStep w (l.rx.getD w.ch)) (view s.rc) :=
    (Pass.attach_settled hr hs).final_eq_foldl (f := fun s => view s.rc)
      fun _ l _ h => by rw [h.1.rc]; exact view_react l h.2
  have hmap : (r.map Prod.fst).foldl (fun w l => discreteStep w (l.rx.getD w.ch)) (view s.rc)
      = (r.map fun e => e.1.rx).foldl (fun w o => discreteStep w (o.getD w.ch)) (view s.rc) := by
    rw [List.foldl_map, List.foldl_map]
  rw [hfold, hmap, foldl_collapse (fun _ _ => rfl) discreteStep_again _ _ hread]
  rfl

/-- After the first pass the view has read its vector. -/
lemma discreteStep_view_final {D : Device δ} {s : System δ} {r : List (Label × System δ)}
    (hr : IsRun (Pass D) s r) (hs : s.rc.Settled) (hne : r ≠ []) :
    discreteStep (view (final s r).rc) (final s r).rc.cmd.ch = view (final s r).rc := by
  obtain ⟨r', e, rfl⟩ := List.eq_nil_or_concat r |>.resolve_left hne
  rw [List.concat_eq_append] at hr ⊢
  obtain ⟨l, t⟩ := e
  obtain ⟨hr', hp, -⟩ := isRun_append.mp hr
  have hv := view_react l (Pass.settled hr' hs)
  rw [final_append, final_cons, final_nil, hp.rc, hv]
  exact discreteStep_again _ _

/-- **Stuttering invariance.**  From any reachable state in which a frame has been accepted, take
two continuations of the main loop, on whatever devices and links, whose accepted vectors,
preceded by the present one, collapse to the same sequence.  They issue the same discrete
requests and end with the same `stand_l`. -/
theorem stutter_invariance {δ₁ δ₂ : Type} (D : Device δ) (m : Memory) (dev : δ)
    (r : List (Label × System δ)) (hr : IsRun (Pass D) (System.init m dev) r)
    (hacc : acceptedVectors r ≠ [])
    (D₁ : Device δ₁) (dev₁ : δ₁) (r₁ : List (Label × System δ₁))
    (D₂ : Device δ₂) (dev₂ : δ₂) (r₂ : List (Label × System δ₂)) :
    let s := final (System.init m dev) r
    let s₁ : System δ₁ := ⟨s.line, s.rc, dev₁⟩
    let s₂ : System δ₂ := ⟨s.line, s.rc, dev₂⟩
    IsRun (Pass D₁) s₁ r₁ → IsRun (Pass D₂) s₂ r₂ →
    (s.rc.cmd.ch :: acceptedVectors r₁).destutter (· ≠ ·)
      = (s.rc.cmd.ch :: acceptedVectors r₂).destutter (· ≠ ·) →
    (issuedIn s.rc (final s₁ r₁).rc).filter isDiscrete
      = (issuedIn s.rc (final s₂ r₂).rc).filter isDiscrete ∧
    (final s₁ r₁).rc.cmd.standL = (final s₂ r₂).rc.cmd.standL := by
  intro s s₁ s₂ hr₁ hr₂ hsame
  have hne : r ≠ [] := by
    rintro rfl
    exact hacc rfl
  have hset : s.rc.Settled := Pass.settled hr (settled_init m)
  have hread := discreteStep_view_final hr (settled_init m) hne
  have hview : view (final s₁ r₁).rc = view (final s₂ r₂).rc := by
    rw [view_final hr₁ hset hread, view_final hr₂ hset hread]
    exact congrArg (List.foldl discreteStep (view s.rc)) hsame
  refine ⟨?_, congrArg DiscreteView.standL hview⟩
  have hlog : (final s₁ r₁).rc.dm.issued.filter isDiscrete
      = (final s₂ r₂).rc.dm.issued.filter isDiscrete := congrArg DiscreteView.log hview
  rw [issued_final hr₁, issued_final hr₂, List.filter_append, List.filter_append] at hlog
  exact List.append_cancel_left hlog

/-- The press of `A` repeated, then a broken frame, then a release and a second press; against the
release and the press alone, on a link that is down. -/
theorem stutter_invariance_presses :
    let broken : ℕ → UInt8 := frameStream fun j =>
      if j = 1 then fun _ => 0x01
      else frameOf
        ([pressed true 7, centred, pressed true 7, centred, pressed true 7].getD j centred)
    let s := final (System.init Memory.centred 0)
      (scenario [centred, pressed true 7] [fun _ => true])
    let s₁ : System ℕ := ⟨s.line, s.rc, 0⟩
    let r₁ := executed (exactLine broken) (List.replicate 4 fun _ => true) s₁
    let r₂ := executed (exactLine (script [centred, pressed true 7]))
      (List.replicate 2 fun _ => false) s₁
    (issuedIn s.rc (final s₁ r₁).rc).filter isDiscrete
      = (issuedIn s.rc (final s₁ r₂).rc).filter isDiscrete ∧
    (final s₁ r₁).rc.cmd.standL = (final s₁ r₂).rc.cmd.standL :=
  stutter_invariance _ _ _ _ (executed_isRun (by decide +kernel)) (by decide +kernel) _ _ _ _ _ _
    (executed_isRun (by decide +kernel)) (executed_isRun (by decide +kernel)) (by decide +kernel)

end SbusRemote
