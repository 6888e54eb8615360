import SbusRemote.Json.Parse

/-!
# Building objects and looking into them

The calls a program makes to build an object and to read one: members are added at the end, and
found by name without regard to the case of ASCII letters.
-/

namespace SbusRemote.CJson

/-- A string literal as the bytes of its UTF-8 encoding. -/
def literalText (s : String) : CString := CString.ofText (s.toList.flatMap String.utf8EncodeChar)

/-! ## Names -/

/-- `tolower`, in the C locale. -/
def tolower (c : UInt8) : UInt8 := if 65 ≤ c && c ≤ 90 then c + 32 else c

/-- `cJSON_strcasecmp`. -/
def strcasecmp : Text → Text → ℤ
  | [], s2 => if tolower 0 = tolower (peek s2) then 0 else 0 - (tolower (peek s2)).toNat
  | c :: s1, s2 =>
      if tolower c = tolower (peek s2) then strcasecmp s1 s2.tail
      else (tolower c).toNat - (tolower (peek s2)).toNat

lemma tolower_eq_zero {c : UInt8} : tolower c = 0 ↔ c = 0 := by
  constructor
  · intro h
    rw [tolower] at h
    split_ifs at h with hc
    · rw [Bool.and_eq_true, decide_eq_true_eq, decide_eq_true_eq, UInt8.le_iff_toNat_le,
        UInt8.le_iff_toNat_le] at hc
      have h0 := congrArg UInt8.toNat h
      rw [UInt8.toNat_add] at h0
      have h65 : (65 : UInt8).toNat = 65 := rfl
      have h90 : (90 : UInt8).toNat = 90 := rfl
      have h32 : (32 : UInt8).toNat = 32 := rfl
      have hz : (0 : UInt8).toNat = 0 := rfl
      omega
    · exact h
  · rintro rfl
    rfl

lemma tolower_ne_zero {c : UInt8} {s : Text} (h : 0 ∉ c :: s) : tolower c ≠ 0 := fun hc =>
  h (tolower_eq_zero.mp hc ▸ List.mem_cons_self)

/-- **`cJSON_strcasecmp` compares without regard to case.** -/
theorem strcasecmp_eq_zero : ∀ {s1 s2 : Text}, 0 ∉ s1 → 0 ∉ s2 →
    (strcasecmp s1 s2 = 0 ↔ s1.map tolower = s2.map tolower)
  | [], [], _, _ => by simp [strcasecmp]
  | [], d :: s2, _, h₂ => by
      have hd := tolower_ne_zero h₂
      have hpos : (tolower d).toNat ≠ 0 := fun h => hd (UInt8.toNat_inj.mp h)
      have hzero : tolower 0 = 0 := rfl
      simp only [strcasecmp, peek_cons, hzero, if_neg hd.symm, List.map_nil, List.map_cons]
      constructor
      · intro h
        omega
      · intro h
        exact absurd h (by simp)
  | c :: s1, [], h₁, _ => by
      have hc := tolower_ne_zero h₁
      have hpos : (tolower c).toNat ≠ 0 := fun h => hc (UInt8.toNat_inj.mp h)
      have hzero : tolower 0 = 0 := rfl
      simp only [strcasecmp, peek_nil, hzero, if_neg hc, List.map_nil, List.map_cons]
      constructor
      · intro h
        have : (0 : UInt8).toNat = 0 := rfl
        omega
      · intro h
        exact absurd h (by simp)
  | c :: s1, d :: s2, h₁, h₂ => by
      rw [strcasecmp, peek_cons, List.tail_cons, List.map_cons, List.map_cons, List.cons.injEq]
      by_cases heq : tolower c = tolower d
      · rw [if_pos heq, strcasecmp_eq_zero (fun h => h₁ (List.mem_cons_of_mem c h))
          (fun h => h₂ (List.mem_cons_of_mem d h))]
        simp [heq]
      · have hne : (tolower c).toNat ≠ (tolower d).toNat := fun h => heq (UInt8.toNat_inj.mp h)
        rw [if_neg heq]
        constructor
        · intro h
          omega
        · exact fun h => absurd h.1 heq

/-! ## Objects -/

section

variable {D : Type} [CDouble D]

/-- `cJSON_CreateObject`. -/
def createObject : Item D := .object .nil

/-- `cJSON_CreateNumber`. -/
def createNumber (num : D) : Item D := .number ⟨CDouble.toInt num, num⟩

/-- `cJSON_AddItemToArray` after the name is set: the members of an object, and one more. -/
def Members.append : Members D → CString → Item D → Members D
  | .nil, string, item => .cons string item .nil
  | .cons string' item' next, string, item => .cons string' item' (next.append string item)

/-- `cJSON_AddNumberToObject`, of an object. -/
def addNumberToObject (object : Item D) (name : CString) (n : D) : Item D :=
  match object with
  | .object child => .object (child.append name (createNumber n))
  | item => item

/-- The loop of `cJSON_GetObjectItem`. -/
def Members.get (string : CString) : Members D → Option (Item D)
  | .nil => none
  | .cons string' item next =>
      if strcasecmp string'.val string.val ≠ 0 then next.get string else some item

/-- `cJSON_GetObjectItem`, of an object. -/
def getObjectItem (object : Item D) (string : CString) : Option (Item D) :=
  match object with
  | .object child => child.get string
  | _ => none

end

end SbusRemote.CJson
