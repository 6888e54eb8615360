import SbusRemote.Json.Parse

/-!
# The texts the parser accepts

The grammar of the texts `cJSON.c` parses, and the item each of them stands for, without a word
about how they are parsed.  It is JSON with more white space and more numbers.

* `ItemText` — the text of an item, and the item.
* `parseValue_itemText` — the parser reads every such text to its end.
-/

namespace SbusRemote.CJson

open Decimal (isDigit)

/-- Bytes `skip` passes over. -/
def White (w : Text) : Prop := ∀ c ∈ w, c ≤ 32

variable {D : Type} [CDouble D]

mutual

/-- **The text of an item**, with a text in `W` wherever white space may stand. -/
inductive ItemText (W : Text → Prop) : Text → Item D → Prop
  | null : ItemText W nullText .null
  | false : ItemText W falseText .false
  | true : ItemText W trueText .true
  | number {t : Text} {n : Number D} : NumberText t n → ItemText W t (.number n)
  | string {body out : Text} :
      Literal body out → ItemText W (34 :: (body ++ [34])) (.string (CString.ofText out))
  | emptyArray {w : Text} : W w → ItemText W (91 :: (w ++ [93])) (.array .nil)
  | array {w t u : Text} {item : Item D} {next : Chain D} : W w → ItemText W t item →
      ChainText W u next → ItemText W (91 :: (w ++ (t ++ u))) (.array (.cons item next))
  | emptyObject {w : Text} : W w → ItemText W (123 :: (w ++ [125])) (.object .nil)
  | object {w t u : Text} {string : CString} {item : Item D} {next : Members D} : W w →
      MemberText W t string item → MembersText W u next →
      ItemText W (123 :: (w ++ (t ++ u))) (.object (.cons string item next))

/-- What follows an element, to the closing bracket. -/
inductive ChainText (W : Text → Prop) : Text → Chain D → Prop
  | nil {w : Text} : W w → ChainText W (w ++ [93]) .nil
  | cons {w w' t u : Text} {item : Item D} {next : Chain D} : W w → W w' →
      ItemText W t item → ChainText W u next →
      ChainText W (w ++ 44 :: (w' ++ (t ++ u))) (.cons item next)

/-- A name, a colon and a value. -/
inductive MemberText (W : Text → Prop) : Text → CString → Item D → Prop
  | mk {body out w w' t : Text} {item : Item D} : Literal body out → W w → W w' →
      ItemText W t item →
      MemberText W (34 :: (body ++ 34 :: (w ++ 58 :: (w' ++ t)))) (CString.ofText out) item

/-- What follows a member, to the closing brace. -/
inductive MembersText (W : Text → Prop) : Text → Members D → Prop
  | nil {w : Text} : W w → MembersText W (w ++ [125]) .nil
  | cons {w w' t u : Text} {string : CString} {item : Item D} {next : Members D} : W w →
      W w' → MemberText W t string item → MembersText W u next →
      MembersText W (w ++ 44 :: (w' ++ (t ++ u))) (.cons string item next)

end

/-! ## Dispatching on the first byte -/

lemma take_ne {value lit : Text} {k : ℕ} (h : peek value ≠ peek lit) (hlit : peek lit ≠ 0)
    (hk : k ≠ 0) : value.take k ≠ lit := by
  rintro rfl
  cases value with
  | nil => exact hlit (by simp)
  | cons c t =>
      obtain ⟨k, rfl⟩ := Nat.exists_eq_succ_of_ne_zero hk
      exact h rfl

section

variable {value : Text} (fuel : ℕ)

/-- The three words start with letters of their own. -/
lemma parseValue_of_peek (h : peek value ≠ 110) (h₁ : peek value ≠ 102) (h₂ : peek value ≠ 116) :
    parseValue D (fuel + 1) value =
      if peek value = 34 then (parseString value).bind fun s value => .done (.string s) value
      else if peek value = 45 || isDigit (peek value) then
        (parseNumber D value).bind fun n value => .done (.number n) value
      else if peek value = 91 then parseArray D fuel value
      else if peek value = 123 then parseObject D fuel value
      else .failed value := by
  rw [parseValue, if_neg (take_ne h (by decide) (by decide)),
    if_neg (take_ne h₁ (by decide) (by decide)), if_neg (take_ne h₂ (by decide) (by decide))]

lemma parseValue_string (h : peek value = 34) :
    parseValue D (fuel + 1) value
      = (parseString value).bind fun s value => .done (.string s) value := by
  rw [parseValue_of_peek fuel (by rw [h]; decide) (by rw [h]; decide) (by rw [h]; decide),
    if_pos h]

lemma parseValue_number (h : peek value = 45 ∨ isDigit (peek value) = true) :
    parseValue D (fuel + 1) value
      = (parseNumber D value).bind fun n value => .done (.number n) value := by
  have hne {c : UInt8} (hc : c ≠ 45) (hc' : isDigit c = false) : peek value ≠ c := by
    rintro rfl
    exact h.elim hc fun h => absurd h (by rw [hc']; decide)
  have hstart : (peek value = 45 || isDigit (peek value)) = true := by
    rwa [Bool.or_eq_true, decide_eq_true_eq]
  rw [parseValue_of_peek fuel (hne (by decide) (by decide)) (hne (by decide) (by decide))
    (hne (by decide) (by decide)), if_neg (hne (by decide) (by decide)), if_pos hstart]

lemma parseValue_array (h : peek value = 91) :
    parseValue D (fuel + 1) value = parseArray D fuel value := by
  rw [parseValue_of_peek fuel (by rw [h]; decide) (by rw [h]; decide) (by rw [h]; decide), h]
  rfl

lemma parseValue_object (h : peek value = 123) :
    parseValue D (fuel + 1) value = parseObject D fuel value := by
  rw [parseValue_of_peek fuel (by rw [h]; decide) (by rw [h]; decide) (by rw [h]; decide), h]
  rfl

end

/-! ## The parser reads the text of an item -/

/-- No item starts with white space or with a bracket that closes. -/
lemma ItemText.peek {t : Text} {item : Item D} (h : ItemText White t item) (r : Text) :
    32 < CJson.peek (t ++ r) ∧ CJson.peek (t ++ r) ≠ 93 ∧ CJson.peek (t ++ r) ≠ 125 := by
  cases h with
  | number h =>
      rcases h.peek r with h | h
      · rw [h]
        decide
      · have hin := Decimal.isDigit_iff.mp h
        refine ⟨UInt8.lt_iff_toNat_lt.mpr (hin.1.trans_lt' (by decide)), ?_, ?_⟩ <;>
          · intro h'
            exact absurd h (by rw [h']; decide)
  | _ => simp [nullText, falseText, trueText]

/-- `skip` goes to the item. -/
lemma ItemText.skip {w t : Text} {item : Item D} (h : ItemText White t item) (hw : White w)
    (r : Text) : CJson.skip (w ++ (t ++ r)) = t ++ r := by
  have hpeek := (h.peek r).1
  rw [skip_append hw]
  cases htr : t ++ r with
  | nil => rfl
  | cons c u => exact skip_cons (by rwa [htr] at hpeek) u

lemma skip_white {w : Text} (hw : White w) {c : UInt8} (hc : 32 < c) (r : Text) :
    skip (w ++ c :: r) = c :: r := by
  rw [skip_append hw, skip_cons hc]

/-- White space does not continue a number, nor does what follows an item in a list. -/
lemma numberEnds_white {w r : Text} (hw : White w) (hr : NumberEnds r) : NumberEnds (w ++ r) := by
  cases w with
  | nil => exact hr
  | cons c w =>
      have hc : c.toNat ≤ 32 := UInt8.le_iff_toNat_le.mp (hw c List.mem_cons_self)
      have hne {b : UInt8} (hb : 32 < b.toNat) : c ≠ b := by
        rintro rfl
        omega
      constructor
      · rw [Bool.eq_false_iff]
        intro h
        have := Decimal.isDigit_iff.mp h
        change 48 ≤ c.toNat ∧ _ at this
        omega
      · simp only [List.cons_append, peek_cons, List.mem_cons, List.not_mem_nil, or_false, not_or]
        exact ⟨hne (by decide), hne (by decide), hne (by decide), hne (by decide), hne (by decide)⟩

lemma numberEnds_cons {c : UInt8} (h : isDigit c = false ∧ c ∉ ([46, 101, 69, 43, 45] : Text))
    (r : Text) : NumberEnds (c :: r) := h

lemma ChainText.numberEnds {u : Text} {next : Chain D} (h : ChainText White u next) (r : Text) :
    NumberEnds (u ++ r) := by
  cases h with
  | nil hw =>
      rw [List.append_assoc]
      exact numberEnds_white hw (numberEnds_cons (by decide) _)
  | cons hw _ _ _ =>
      rw [List.append_assoc]
      exact numberEnds_white hw (numberEnds_cons (by decide) _)

lemma MembersText.numberEnds {u : Text} {next : Members D} (h : MembersText White u next)
    (r : Text) :
    NumberEnds (u ++ r) := by
  cases h with
  | nil hw =>
      rw [List.append_assoc]
      exact numberEnds_white hw (numberEnds_cons (by decide) _)
  | cons hw _ _ _ =>
      rw [List.append_assoc]
      exact numberEnds_white hw (numberEnds_cons (by decide) _)

/-- `r` may stand behind the item. -/
def Follows (item : Item D) (r : Text) : Prop := ∀ n, item = .number n → NumberEnds r

omit [CDouble D] in
lemma follows_of_numberEnds {r : Text} (h : NumberEnds r) (item : Item D) : Follows item r :=
  fun _ _ => h

lemma MemberText.peek {t : Text} {string : CString} {item : Item D}
    (h : MemberText White t string item)
    (r : Text) : CJson.peek (t ++ r) = 34 := by
  cases h
  rfl

lemma MemberText.skip {w t : Text} {string : CString} {item : Item D}
    (h : MemberText White t string item) (hw : White w) (r : Text) :
    CJson.skip (w ++ (t ++ r)) = t ++ r := by
  rw [skip_append hw, eq_cons_of_peek (h.peek r) (by decide), skip_cons (by decide)]

lemma parseMember_memberText {parse : Text → Parsed (Item D)} {t : Text} {string : CString}
    {item : Item D} (h : MemberText White t string item) (hmax : t.length ≤ intMax) (r : Text)
    (hparse : ∀ u, ItemText White u item → u.length < t.length → parse (u ++ r) = .done item r) :
    parseMember D parse (t ++ r) = .done (string, item) r := by
  cases h with
  | @mk body out w w' u _ hlit hw hw' hu =>
      have htext : 34 :: (body ++ 34 :: (w ++ 58 :: (w' ++ u))) ++ r
          = 34 :: (body ++ 34 :: (w ++ 58 :: (w' ++ (u ++ r)))) := by simp
      have hbody : body.length < intMax := by
        simp only [List.length_cons, List.length_append] at hmax
        omega
      rw [htext, parseMember, parseString_literal hlit hbody, Parsed.bind_done,
        skip_white hw (by decide), if_neg (by simp), List.tail_cons, hu.skip hw',
        hparse u hu (by simp; omega), Parsed.bind_done]

/-- The functions read the texts that are short enough for `fuel`, and for an `int`. -/
structure Reads (D : Type) [CDouble D] (fuel : ℕ) : Prop where
  value : ∀ {t : Text} {item : Item D} {r : Text}, ItemText White t item → Follows item r →
    t.length ≤ intMax → 2 * t.length + 1 ≤ fuel → parseValue D fuel (t ++ r) = .done item r
  array : ∀ {w t u : Text} {item : Item D} {next : Chain D} {r : Text}, White w →
    ItemText White t item → ChainText White u next → t.length ≤ intMax → u.length ≤ intMax →
    2 * (w.length + t.length + u.length + 1) ≤ fuel →
      parseArray D fuel (91 :: (w ++ (t ++ (u ++ r)))) = .done (.array (.cons item next)) r
  elements : ∀ {t : Text} {next : Chain D} {r : Text}, ChainText White t next →
    t.length ≤ intMax → 2 * t.length + 1 ≤ fuel →
      parseElements D fuel (skip (t ++ r)) = .done next r
  object : ∀ {w t u : Text} {string : CString} {item : Item D} {next : Members D} {r : Text},
    White w → MemberText White t string item → MembersText White u next →
      t.length ≤ intMax → u.length ≤ intMax → 2 * (w.length + t.length + u.length + 1) ≤ fuel →
        parseObject D fuel (123 :: (w ++ (t ++ (u ++ r))))
          = .done (.object (.cons string item next)) r
  members : ∀ {t : Text} {next : Members D} {r : Text}, MembersText White t next →
    t.length ≤ intMax → 2 * t.length + 1 ≤ fuel →
      parseMembers D fuel (skip (t ++ r)) = .done next r

lemma parseArray_empty (fuel : ℕ) {w : Text} (hw : White w) (r : Text) :
    parseArray D (fuel + 1) (91 :: (w ++ 93 :: r)) = .done (.array .nil) r := by
  rw [parseArray, if_neg (by simp), List.tail_cons, skip_white hw (by decide)]
  rfl

lemma parseObject_empty (fuel : ℕ) {w : Text} (hw : White w) (r : Text) :
    parseObject D (fuel + 1) (123 :: (w ++ 125 :: r)) = .done (.object .nil) r := by
  rw [parseObject, if_neg (by simp), List.tail_cons, skip_white hw (by decide)]
  rfl

namespace Reads

variable {fuel : ℕ}

/-- A value, one level up. -/
lemma value_succ (ih : Reads D fuel) {t : Text} {item : Item D} {r : Text}
    (h : ItemText White t item) (hr : Follows item r) (hmax : t.length ≤ intMax)
    (hfuel : 2 * t.length + 1 ≤ fuel + 1) :
    parseValue D (fuel + 1) (t ++ r) = .done item r := by
  cases h with
  | null => rfl
  | false => rfl
  | true => rfl
  | number h =>
      rw [parseValue_number _ (h.peek r), parseNumber_text h (hr _ rfl), Parsed.bind_done]
  | @string body out h =>
      have htext : 34 :: (body ++ [34]) ++ r = 34 :: (body ++ 34 :: r) := by simp
      have hbody : body.length < intMax := by
        simp only [List.length_cons, List.length_append] at hmax
        omega
      rw [htext, parseValue_string _ rfl, parseString_literal h hbody, Parsed.bind_done]
  | @emptyArray w hw =>
      have htext : 91 :: (w ++ [93]) ++ r = 91 :: (w ++ 93 :: r) := by simp
      simp only [List.length_cons] at hfuel
      obtain ⟨fuel, rfl⟩ := Nat.exists_eq_succ_of_ne_zero (show fuel ≠ 0 by omega)
      rw [htext, parseValue_array _ rfl, parseArray_empty _ hw]
  | @array w t u item next hw ht hu =>
      have htext : 91 :: (w ++ (t ++ u)) ++ r = 91 :: (w ++ (t ++ (u ++ r))) := by simp
      simp only [List.length_cons, List.length_append] at hmax hfuel
      rw [htext, parseValue_array _ rfl,
        ih.array hw ht hu (by omega) (by omega) (by omega)]
  | @emptyObject w hw =>
      have htext : 123 :: (w ++ [125]) ++ r = 123 :: (w ++ 125 :: r) := by simp
      simp only [List.length_cons] at hfuel
      obtain ⟨fuel, rfl⟩ := Nat.exists_eq_succ_of_ne_zero (show fuel ≠ 0 by omega)
      rw [htext, parseValue_object _ rfl, parseObject_empty _ hw]
  | @object w t u string item next hw ht hu =>
      have htext : 123 :: (w ++ (t ++ u)) ++ r = 123 :: (w ++ (t ++ (u ++ r))) := by simp
      simp only [List.length_cons, List.length_append] at hmax hfuel
      rw [htext, parseValue_object _ rfl,
        ih.object hw ht hu (by omega) (by omega) (by omega)]

lemma array_succ (ih : Reads D fuel) {w t u : Text} {item : Item D} {next : Chain D} {r : Text}
    (hw : White w) (ht : ItemText White t item) (hu : ChainText White u next)
    (htmax : t.length ≤ intMax) (humax : u.length ≤ intMax)
    (hfuel : 2 * (w.length + t.length + u.length + 1) ≤ fuel + 1) :
    parseArray D (fuel + 1) (91 :: (w ++ (t ++ (u ++ r))))
      = .done (.array (.cons item next)) r := by
  have hskip := ht.skip (w := []) (by simp [White]) (u ++ r)
  rw [List.nil_append] at hskip
  rw [parseArray, if_neg (by simp), List.tail_cons]
  simp only [ht.skip hw, hskip]
  rw [if_neg (ht.peek _).2.1,
    ih.value ht (follows_of_numberEnds (hu.numberEnds r) item) htmax (by omega), Parsed.bind_done,
    ih.elements hu humax (by omega), Parsed.bind_done]

lemma elements_succ (ih : Reads D fuel) {t : Text} {next : Chain D} {r : Text}
    (h : ChainText White t next) (hmax : t.length ≤ intMax)
    (hfuel : 2 * t.length + 1 ≤ fuel + 1) :
    parseElements D (fuel + 1) (skip (t ++ r)) = .done next r := by
  cases h with
  | @nil w hw =>
      rw [List.append_assoc, List.singleton_append, skip_white hw (by decide)]
      rfl
  | @cons w w' t u item next hw hw' ht hu =>
      have htext : w ++ 44 :: (w' ++ (t ++ u)) ++ r = w ++ 44 :: (w' ++ (t ++ (u ++ r))) := by simp
      simp only [List.length_append, List.length_cons] at hmax hfuel
      rw [htext, skip_white hw (by decide), parseElements, peek_cons, if_pos rfl, List.tail_cons,
        ht.skip hw', ih.value ht (follows_of_numberEnds (hu.numberEnds r) item) (by omega)
          (by omega),
        Parsed.bind_done, ih.elements hu (by omega) (by omega), Parsed.bind_done]

/-- The value of a member, with the fuel of the functions that read members. -/
lemma member (ih : Reads D fuel) {t : Text} {string : CString} {item : Item D} {r : Text}
    (h : MemberText White t string item) (hr : NumberEnds r) (hmax : t.length ≤ intMax)
    (hfuel : 2 * t.length ≤ fuel + 1) :
    parseMember D (fun value => parseValue D fuel value) (t ++ r) = .done (string, item) r :=
  parseMember_memberText h hmax r fun u hu hlt =>
    ih.value hu (follows_of_numberEnds hr item) (by omega) (by omega)

lemma object_succ (ih : Reads D fuel) {w t u : Text} {string : CString} {item : Item D}
    {next : Members D} {r : Text} (hw : White w) (ht : MemberText White t string item)
    (hu : MembersText White u next) (htmax : t.length ≤ intMax) (humax : u.length ≤ intMax)
    (hfuel : 2 * (w.length + t.length + u.length + 1) ≤ fuel + 1) :
    parseObject D (fuel + 1) (123 :: (w ++ (t ++ (u ++ r))))
      = .done (.object (.cons string item next)) r := by
  have hskip := ht.skip (w := []) (by simp [White]) (u ++ r)
  rw [List.nil_append] at hskip
  rw [parseObject, if_neg (by simp), List.tail_cons]
  simp only [ht.skip hw, hskip]
  rw [if_neg (by rw [ht.peek]; decide), ih.member ht (hu.numberEnds r) htmax (by omega),
    Parsed.bind_done, ih.members hu humax (by omega), Parsed.bind_done]

lemma members_succ (ih : Reads D fuel) {t : Text} {next : Members D} {r : Text}
    (h : MembersText White t next) (hmax : t.length ≤ intMax)
    (hfuel : 2 * t.length + 1 ≤ fuel + 1) :
    parseMembers D (fuel + 1) (skip (t ++ r)) = .done next r := by
  cases h with
  | @nil w hw =>
      rw [List.append_assoc, List.singleton_append, skip_white hw (by decide)]
      rfl
  | @cons w w' t u string item next hw hw' ht hu =>
      have htext : w ++ 44 :: (w' ++ (t ++ u)) ++ r = w ++ 44 :: (w' ++ (t ++ (u ++ r))) := by simp
      simp only [List.length_append, List.length_cons] at hmax hfuel
      rw [htext, skip_white hw (by decide), parseMembers, peek_cons, if_pos rfl, List.tail_cons,
        ht.skip hw', ih.member ht (hu.numberEnds r) (by omega) (by omega), Parsed.bind_done,
        ih.members hu (by omega) (by omega), Parsed.bind_done]

end Reads

/-- By induction on the bound: each function calls the others with one less, on less text. -/
theorem reads : ∀ fuel, Reads D fuel
  | 0 =>
    { value := fun _ _ _ h => absurd h (by omega)
      array := fun _ _ _ _ _ h => absurd h (by omega)
      elements := fun _ _ h => absurd h (by omega)
      object := fun _ _ _ _ _ h => absurd h (by omega)
      members := fun _ _ h => absurd h (by omega) }
  | fuel + 1 =>
    { value := fun h hr hmax hfuel => (reads fuel).value_succ h hr hmax hfuel
      array := fun hw ht hu htmax humax hfuel =>
        (reads fuel).array_succ hw ht hu htmax humax hfuel
      elements := fun h hmax hfuel => (reads fuel).elements_succ h hmax hfuel
      object := fun hw ht hu htmax humax hfuel =>
        (reads fuel).object_succ hw ht hu htmax humax hfuel
      members := fun h hmax hfuel => (reads fuel).members_succ h hmax hfuel }

/-- **The parser reads the text of an item to its end.** -/
theorem parseValue_itemText {t : Text} {item : Item D} {r : Text} {fuel : ℕ}
    (h : ItemText White t item) (hr : Follows item r) (hmax : t.length ≤ intMax)
    (hfuel : 2 * t.length + 1 ≤ fuel) :
    parseValue D fuel (t ++ r) = .done item r := (reads fuel).value h hr hmax hfuel

end SbusRemote.CJson
