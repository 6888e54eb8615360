import SbusRemote.Control.MainLoop
import SbusRemote.Json.Build
import SbusRemote.Json.RoundTrip

/-!
# What a request says on the wire

A `Request` carries a parameter; what is sent is a JSON text.  `dds_vuiApiReq` and
`dds_vuiApiReq_xyz` build an object, print it without formatting and assign the text.

* `Parameter.readAs` — the text of a parameter, read with `cJSON_Parse` and `cJSON_GetObjectItem`,
  gives the names back, integers exactly and other values to half a millionth.
* `requests_read` — so it is with every request of every run of the main loop.
-/

namespace SbusRemote

open CJson Lts ByteLine

/-! ## The text -/

/-- `jsonObj`; none for a request without a parameter. -/
def Parameter.object : Parameter → Option (Item ℚ)
  | .empty => none
  | .field name value => some (addNumberToObject createObject (literalText name) value)
  | .xyz x y z =>
      let jsonObj := createObject
      let jsonObj := addNumberToObject jsonObj (literalText "x") x
      let jsonObj := addNumberToObject jsonObj (literalText "y") y
      some (addNumberToObject jsonObj (literalText "z") z)

/-- `reqMsg.parameter()`, if it can be printed. -/
def Parameter.text (p : Parameter) : Option Text :=
  match p.object with
  | none => some []
  | some jsonObj => printUnformatted jsonObj

/-- The names and the values of a parameter. -/
def Parameter.entries : Parameter → List (String × ℚ)
  | .empty => []
  | .field name value => [(name, value)]
  | .xyz x y z => [("x", x), ("y", y), ("z", z)]

/-- What a reader gets for the value `v`. -/
structure ReadValue (v : ℚ) (n : Number ℚ) : Prop where
  near : |n.valuedouble - v| ≤ 1 / 2 / 10 ^ 6
  exact : ∀ k : ℤ, v = k → n.valuedouble = k ∧ n.valueint = k

/-- A reader of the text finds the entries of the parameter: nothing, or an object with each value
under its name. -/
def Parameter.ReadAs (p : Parameter) (text : CString) : Prop :=
  (p = .empty ∧ text.val = []) ∨
    ∃ jsonObj, parse ℚ text = .done jsonObj [] ∧ ∀ e ∈ p.entries,
      ∃ n, getObjectItem jsonObj (literalText e.1) = some (.number n) ∧ ReadValue e.2 n

/-! ## One value -/

lemma log_nonpos {q : ℚ} (h : q < 1) : Int.log 10 q ≤ 0 := by
  rcases le_or_gt q 0 with hq | hq
  · rw [Int.log_of_right_le_zero 10 hq]
  · have hlt : Int.log 10 q < 0 := by
      rw [← Int.lt_zpow_iff_log_lt (by norm_num) hq]
      exact h.trans_eq (zpow_zero _).symm
    exact hlt.le

/-- A value within a million is read to half a millionth, an integer exactly. -/
lemma readValue_shown {v : ℚ} (h : |v| ≤ 10 ^ 6) :
    ReadValue v (Number.shown ⟨CDouble.toInt v, v⟩) where
  near := by
    rcases shown_error ⟨CDouble.toInt v, v⟩ with hnear | ⟨-, -, hnear⟩ | ⟨hrange, hnear⟩
    · exact hnear.trans epsilon_lt.le
    · exact hnear
    · have hlt : |v| < 1 / 10 ^ 6 :=
        hrange.resolve_right (not_lt.mpr (h.trans (by norm_num)))
      have hlog : Int.log 10 |v| ≤ 0 := log_nonpos (hlt.trans (by norm_num))
      calc _ ≤ 1 / 2 * (10 : ℚ) ^ (Int.log 10 |v| - 6) := hnear
        _ ≤ 1 / 2 * 10 ^ (-6 : ℤ) := by
            refine mul_le_mul_of_nonneg_left (zpow_le_zpow_right₀ (by norm_num) ?_) (by norm_num)
            omega
        _ = 1 / 2 / 10 ^ 6 := by norm_num
  exact := by
    intro k hk
    have hconv : (⟨CDouble.toInt v, v⟩ : Number ℚ).Converted := rfl
    have hshown := shown_int hconv hk (h.trans (by norm_num))
    have hint := converted_shown ⟨CDouble.toInt v, v⟩
    rw [Number.Converted, hshown] at hint
    have hbound : -1000000 ≤ k ∧ k ≤ 1000000 := by
      rw [hk, abs_le] at h
      constructor
      · exact_mod_cast (by linarith [h.1] : (-1000000 : ℚ) ≤ k)
      · exact_mod_cast (by linarith [h.2] : (k : ℚ) ≤ 1000000)
    refine ⟨hshown.trans hk, ?_⟩
    rw [hint]
    simp only [hk]
    exact toInt_intCast (by omega) (by omega)

/-! ## One parameter -/

/-- All values are within a million. -/
def Parameter.Bounded (p : Parameter) : Prop := ∀ e ∈ p.entries, |e.2| ≤ 10 ^ 6

lemma strcasecmp_self (s : CString) : strcasecmp s.val s.val = 0 :=
  (strcasecmp_eq_zero s.property s.property).mpr rfl

lemma getObjectItem_x (a b c : Item ℚ) : getObjectItem (.object (.cons (literalText "x") a
    (.cons (literalText "y") b (.cons (literalText "z") c .nil)))) (literalText "x") = some a := by
  rw [getObjectItem, Members.get, if_neg (by decide)]

lemma getObjectItem_y (a b c : Item ℚ) : getObjectItem (.object (.cons (literalText "x") a
    (.cons (literalText "y") b (.cons (literalText "z") c .nil)))) (literalText "y") = some b := by
  rw [getObjectItem, Members.get, if_pos (by decide), Members.get, if_neg (by decide)]

lemma getObjectItem_z (a b c : Item ℚ) : getObjectItem (.object (.cons (literalText "x") a
    (.cons (literalText "y") b (.cons (literalText "z") c .nil)))) (literalText "z") = some c := by
  rw [getObjectItem, Members.get, if_pos (by decide), Members.get, if_pos (by decide), Members.get,
    if_neg (by decide)]

/-- What is printed is read back. -/
lemma Parameter.readAs_rendered {p : Parameter} {jsonObj : Item ℚ} (hobj : p.object = some jsonObj)
    (h : p.Bounded) (hall : jsonObj.All Number.Moderate)
    (hlen : (render false 0 jsonObj).length ≤ 1000) : p.ReadAs (rendered false jsonObj) := by
  have hparse := parse_render false false jsonObj (hall.imp fun _ h => h.finite)
    (hlen.trans (by norm_num [intMax]))
  refine .inr ⟨jsonObj.map Number.shown, hparse, ?_⟩
  cases p with
  | empty => exact absurd hobj (by simp [Parameter.object])
  | field name value =>
      obtain rfl := Option.some.inj hobj
      intro e he
      have hvalue := h e he
      obtain rfl : e = (name, (value : ℚ)) := List.mem_singleton.mp he
      refine ⟨_, ?_, readValue_shown hvalue⟩
      change (if strcasecmp _ _ ≠ 0 then _ else _) = _
      rw [if_neg (not_not.mpr (strcasecmp_self _))]
      rfl
  | xyz x y z =>
      obtain rfl := Option.some.inj hobj
      rw [Parameter.Bounded] at h
      simp only [Parameter.entries, List.forall_mem_cons] at h ⊢
      exact ⟨⟨_, getObjectItem_x _ _ _, readValue_shown h.1⟩,
        ⟨_, getObjectItem_y _ _ _, readValue_shown h.2.1⟩,
        ⟨_, getObjectItem_z _ _ _, readValue_shown h.2.2.1⟩, by simp⟩

/-- The parameters `RobotControl` sends: none, a flag, or three values within a million. -/
inductive Parameter.Sendable : Parameter → Prop
  | empty : Sendable .empty
  | enable {value : ℤ} : |value| ≤ 1 → Sendable (.field "enable" value)
  | xyz {x y z : ℚ} : |x| ≤ 10 ^ 6 → |y| ≤ 10 ^ 6 → |z| ≤ 10 ^ 6 → Sendable (.xyz x y z)

lemma Parameter.Sendable.bounded {p : Parameter} (h : p.Sendable) : p.Bounded := by
  cases h with
  | empty => exact List.forall_mem_nil _
  | @enable value h =>
      refine List.forall_mem_singleton.mpr ?_
      have hq : |(value : ℚ)| ≤ 1 := by exact_mod_cast h
      exact hq.trans (by norm_num)
  | xyz hx hy hz => exact List.forall_mem_cons.mpr ⟨hx, List.forall_mem_cons.mpr
      ⟨hy, List.forall_mem_singleton.mpr hz⟩⟩

/-- Such a value has a text, and a short one. -/
lemma moderate_createNumber {v : ℚ} (h : |v| ≤ 10 ^ 6) :
    (⟨CDouble.toInt v, v⟩ : Number ℚ).Moderate :=
  moderate_of_converted rfl (h.trans (pow_le_pow_right₀ (by norm_num) (by norm_num)))

lemma length_number {v : ℚ} (h : |v| ≤ 10 ^ 6) (fmt : Bool) (depth : ℕ) :
    (render fmt depth (createNumber v)).length ≤ 63 :=
  Nat.le_of_succ_le_succ ((moderate_createNumber h).fits.trans (printNumber_size _))

/-- What a member adds to the text. -/
lemma length_member (name : CString) {v : ℚ} (h : |v| ≤ 10 ^ 6) (next : Members ℚ) :
    (renderMembers false 1 (.cons name (createNumber v) next)).length
      ≤ (quoted name).length + 65 + (renderMembers false 1 next).length := by
  have hlen := length_number h false 1
  simp only [renderMembers, formatted, List.length_cons, List.length_append, List.length_nil,
    if_neg Bool.false_ne_true]
  omega

lemma length_object (name : CString) {v : ℚ} (h : |v| ≤ 10 ^ 6) (next : Members ℚ) :
    (render false 0 (.object (.cons name (createNumber v) next))).length
      ≤ (quoted name).length + 65 + (renderMembers false 1 next).length := by
  have hlen := length_number h false 1
  simp only [render, formatted, List.length_cons, List.length_append, List.length_nil,
    if_neg Bool.false_ne_true, Nat.zero_add]
  omega

/-- The object of what `RobotControl` sends is small. -/
lemma Parameter.Sendable.object_small {p : Parameter} (h : p.Sendable) {jsonObj : Item ℚ}
    (hobj : p.object = some jsonObj) :
    jsonObj.All Number.Moderate ∧ (render false 0 jsonObj).length ≤ 1000 := by
  have hclose : (renderMembers false 1 (.nil : Members ℚ)).length = 1 := rfl
  have hbounded := h.bounded
  cases h with
  | empty => exact absurd hobj (by simp [Parameter.object])
  | @enable value _ =>
      obtain rfl := Option.some.inj hobj
      have hvalue := List.forall_mem_singleton.mp hbounded
      have hname : (quoted (literalText "enable")).length = 8 := by decide
      have hlen := length_object (literalText "enable") hvalue .nil
      refine ⟨⟨moderate_createNumber hvalue, trivial⟩, hlen.trans ?_⟩
      omega
  | @xyz x y z hx hy hz =>
      obtain rfl := Option.some.inj hobj
      have hnames : (quoted (literalText "x")).length = 3 ∧ (quoted (literalText "y")).length = 3 ∧
          (quoted (literalText "z")).length = 3 := by decide
      have hlen := length_object (literalText "x") hx (.cons (literalText "y") (createNumber y)
        (.cons (literalText "z") (createNumber z) .nil))
      have hlen₁ := length_member (literalText "y") hy
        (.cons (literalText "z") (createNumber z) .nil)
      have hlen₂ := length_member (literalText "z") hz .nil
      refine ⟨⟨moderate_createNumber hx, moderate_createNumber hy, moderate_createNumber hz,
        trivial⟩, hlen.trans ?_⟩
      omega

/-- It can be printed. -/
lemma Parameter.text_eq {p : Parameter} {jsonObj : Item ℚ} (hobj : p.object = some jsonObj)
    (hall : jsonObj.All Number.Moderate) (hlen : (render false 0 jsonObj).length ≤ 1000) :
    p.text = some (rendered false jsonObj).val := by
  rw [Parameter.text, hobj]
  refine printValue_eq_render false 0 jsonObj (hall.imp fun _ h => h.fits) ?_
  unfold Printable intMax
  omega

/-- A reader finds the entries of what `RobotControl` sends. -/
lemma Parameter.Sendable.readAs {p : Parameter} (h : p.Sendable) :
    ∃ text : CString, p.ReadAs text ∧ p.text = some text.val := by
  cases hobj : p.object with
  | none =>
      have hempty : p = .empty := by
        cases p with
        | empty => rfl
        | _ => exact absurd hobj (by simp [Parameter.object])
      subst hempty
      exact ⟨⟨[], by simp⟩, .inl ⟨rfl, rfl⟩, rfl⟩
  | some jsonObj =>
      obtain ⟨hall, hlen⟩ := h.object_small hobj
      exact ⟨rendered false jsonObj, readAs_rendered hobj h.bounded hall hlen,
        text_eq hobj hall hlen⟩

/-! ## Every request of a run -/

/-- No stick value leaves this bound, whatever the channel. -/
lemma abs_normalize_le {v : ℤ} (h₀ : 0 ≤ v) (h₁ : v ≤ 65535) {a b : ℚ} (ha : |a| ≤ 5 / 2)
    (hb : |b| ≤ 5 / 2) : |normalize v a b 272 1712| ≤ 10 ^ 6 := by
  have hv₀ : (0 : ℚ) ≤ v := by exact_mod_cast h₀
  have hv₁ : (v : ℚ) ≤ 65535 := by exact_mod_cast h₁
  rw [abs_le] at ha hb
  unfold normalize deadZone
  split_ifs
  · refine (Truncate.abs_hundredths_le _).trans ?_
    push_cast
    rw [abs_le]
    constructor <;> norm_num <;> nlinarith
  · refine (Truncate.abs_hundredths_le _).trans ?_
    push_cast
    rw [abs_le]
    constructor <;> norm_num <;> nlinarith
  · norm_num

lemma abs_sticks_le (ch : Channels) (i : Fin 4) : |sticks ch i| ≤ 10 ^ 6 := by
  have hch (k : Fin 16) : 0 ≤ channel ch k ∧ channel ch k ≤ 65535 := by
    have := (ch k).toNat_lt
    simp only [channel]
    omega
  have hlx : |stickLx ch| ≤ 10 ^ 6 :=
    abs_normalize_le (hch 2).1 (hch 2).2 (by norm_num) (by norm_num)
  have hly : |stickLy ch| ≤ 10 ^ 6 :=
    abs_normalize_le (hch 13).1 (hch 13).2 (by norm_num) (by norm_num)
  have hrx : |stickRx ch| ≤ 10 ^ 6 :=
    abs_normalize_le (hch 1).1 (hch 1).2 (by norm_num) (by norm_num)
  have hry : |stickRy ch| ≤ 10 ^ 6 :=
    abs_normalize_le (hch 0).1 (hch 0).2 (by norm_num) (by norm_num)
  have hall : ∀ i, |sticks ch i| ≤ 10 ^ 6 := by
    simpa [Fin.forall_fin_succ, sticks] using ⟨hlx, hly, hrx, hry⟩
  exact hall i

/-- The filter stays in the bound, and what has been sent can be sent. -/
structure WellSent (rc : RControl) : Prop where
  bounded : ∀ i, |rc.ot i| ≤ 10 ^ 6
  sendable : ∀ q ∈ rc.dm.issued, q.parameter.Sendable

lemma commandRequest_sendable {c : UserCommand} {q : Request} (h : q ∈ (commandRequest c).toList) :
    q.parameter.Sendable := by
  cases c <;> simp [commandRequest, lieDownRequest, standUpRequest] at h <;> subst h <;>
    first | exact .empty | exact .enable (by decide)

/-- One pass keeps the bound and adds requests that can be sent. -/
lemma react_wellSent {rc : RControl} (l : Label) (h : WellSent rc) : WellSent (react rc l) := by
  have hstep (i : Fin 4) : |filtered (responding rc l) i| ≤ 10 ^ 6 := by
    rw [filtered_responding, abs_le]
    exact filterStep_mem_Icc ⟨by norm_num, by norm_num⟩ (abs_le.mp (h.bounded i))
      (abs_le.mp (abs_sticks_le _ i))
  constructor
  · intro i
    rw [react_ot, ← filtered_responding]
    exact hstep i
  · rw [react_issued, List.forall_mem_append]
    refine ⟨h.sendable, fun q hq => ?_⟩
    rw [passRequests, requests, List.mem_append, List.mem_append] at hq
    rcases hq with (hq | hq) | hq
    · exact commandRequest_sendable hq
    · rw [mem_moves hq]
      exact .xyz (hstep 0) (hstep 1) (hstep 3)
    · rw [mem_eulers hq]
      exact .xyz (by norm_num) (hstep 2) (by norm_num)

/-- **The wire says what was meant.**  Each request of each run goes out with a text from which a
reader gets its entries: the names as they are, integers exactly, other values to half a
millionth. -/
theorem requests_read {δ : Type} (D : Device δ) (m : Memory) (dev : δ)
    (r : List (Label × System δ)) (hr : IsRun (Pass D) (System.init m dev) r) :
    ∀ q ∈ (final (System.init m dev) r).rc.dm.issued, ∃ text : CString,
      q.parameter.ReadAs text ∧ q.parameter.text = some text.val := by
  have hstart : WellSent (System.init m dev).rc :=
    ⟨fun i => by change |(0 : ℚ)| ≤ _; norm_num, List.forall_mem_nil _⟩
  have hend := (Pass.invariant (I := WellSent) (fun _ l _ h => react_wellSent l h) hr
    (settled_init m) hstart).2
  exact fun q hq => (hend.sendable q hq).readAs

/-- Three accepted frames: two to push the stick forward, one to let go. -/
theorem requests_read_forward :
    let sent := (final (System.init Memory.centred 0) (scenario
      [centred, forward, forward, centred] (List.replicate 4 fun _ => true))).rc.dm.issued
    sent ≠ [] ∧ ∀ q ∈ sent, ∃ text : CString, q.parameter.ReadAs text ∧
      q.parameter.text = some text.val :=
  ⟨by decide +kernel, requests_read _ _ _ _ (executed_isRun (by decide +kernel))⟩

end SbusRemote
