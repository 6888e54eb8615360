import SbusRemote.Json.Exact
import SbusRemote.Json.Grammar

/-!
# The parser accepts nothing else

On a text whose escapes are complete the parser always returns, unless an exponent is no `int`, and
what it accepts is the text of an item; only a string at the very end may lack its closing quote.

* `Sound` — a parse function returns, and what it accepts satisfies a property.
* `parseValue_sound` — no byte beyond the terminator is read, none beyond an allocation written,
  and what is accepted is the text of an item.
* `Accepted` — the texts that are accepted when all of the text has to be read.
-/

namespace SbusRemote.CJson

open Decimal (isDigit)

variable {D : Type} [CDouble D]

/-! ## What the parser reads is the text of an item -/

/-- A parse function called at `t` returns, and what it accepts satisfies `P`; the error pointer
points into `t`.  Only an exponent of `t` that is no `int` makes it go wrong. -/
def Sound {α : Type} (t : Text) (P : α → Text → Prop) : Parsed α → Prop
  | .done a rest => P a rest
  | .failed ep => ep <:+ t
  | .fault => exponentsFit t = false
  | .outOfFuel => False

/-- What was taken from `t` is a text of the grammar `G`. -/
def Took {α : Type} (G : Text → α → Prop) (t : Text) (a : α) (rest : Text) : Prop :=
  ∃ u, t = u ++ rest ∧ G u a ∧ wellEscaped rest = true

/-- A string without a closing quote, which ends with the text. -/
def Unclosed (t : Text) (item : Item D) : Prop :=
  ∃ body out, Literal body out ∧ t = 34 :: body ∧ item = .string (CString.ofText out)

section

variable {α β : Type} {t u : Text} {P : α → Text → Prop} {Q : β → Text → Prop}

lemma Sound.bind {x : Parsed α} {f : α → Text → Parsed β} (h : Sound t P x)
    (hf : ∀ a rest, P a rest → Sound t Q (f a rest)) : Sound t Q (x.bind f) := by
  cases x with
  | done a rest => exact hf a rest h
  | failed ep => exact h
  | fault => exact h
  | outOfFuel => exact h

lemma Sound.imp {P' : α → Text → Prop} {x : Parsed α} (h : Sound t P x)
    (hP : ∀ a rest, P a rest → P' a rest) : Sound t P' x := by
  cases x with
  | done a rest => exact hP a rest h
  | _ => exact h

lemma Sound.of_suffix {x : Parsed α} (h : Sound u P x) (hu : u <:+ t) : Sound t P x := by
  cases x with
  | done a rest => exact h
  | failed ep => exact List.IsSuffix.trans h hu
  | fault =>
      refine Bool.eq_false_iff.mpr fun ht => ?_
      exact Bool.false_ne_true (h.symm.trans (exponentsFit_of_suffix hu ht))
  | outOfFuel => exact h

end

lemma skip_skip (t : Text) : skip (skip t) = skip t := by
  obtain ⟨w, -, -, hstop⟩ := exists_skip t
  rcases hstop with h | h
  · rw [h, skip_nil]
  · cases ht : skip t with
    | nil => rfl
    | cons c u => exact skip_cons (by rwa [ht] at h) u

/-- White space, and what `skip` leaves. -/
lemma exists_white (t : Text) : ∃ w, White w ∧ t = w ++ skip t ∧
    wellEscaped t = wellEscaped (skip t) ∧ (skip t).length ≤ t.length := by
  obtain ⟨w, hw, ht, -⟩ := exists_skip t
  refine ⟨w, hw, ht, ?_, ?_⟩
  · conv_lhs => rw [ht]
    refine wellEscaped_append (fun c hc => ?_) _
    rintro rfl
    exact absurd (hw _ hc) (by decide)
  · conv_rhs => rw [ht]
    simp

lemma skip_suffix (t : Text) : skip t <:+ t := List.dropWhile_suffix _

lemma White.append {w w' : Text} (hw : White w) (hw' : White w') : White (w ++ w') := by
  intro c hc
  exact (List.mem_append.mp hc).elim (hw c) (hw' c)

lemma ChainText.white {w u : Text} {next : Chain D} (hw : White w)
    (h : ChainText White u next) :
    ChainText White (w ++ u) next := by
  cases h with
  | nil hw' =>
      rw [← List.append_assoc]
      exact .nil (hw.append hw')
  | cons hw₁ hw₂ ht hu =>
      rw [← List.append_assoc]
      exact .cons (hw.append hw₁) hw₂ ht hu

lemma MembersText.white {w u : Text} {next : Members D} (hw : White w)
    (h : MembersText White u next) :
    MembersText White (w ++ u) next := by
  cases h with
  | nil hw' =>
      rw [← List.append_assoc]
      exact .nil (hw.append hw')
  | cons hw₁ hw₂ ht hu =>
      rw [← List.append_assoc]
      exact .cons (hw.append hw₁) hw₂ ht hu

/-- The functions are sound on the texts that are short enough for `fuel`, and for an `int`. -/
structure SoundUpTo (D : Type) [CDouble D] (fuel : ℕ) : Prop where
  value : ∀ {t : Text}, wellEscaped t = true → t.length ≤ intMax → 2 * t.length + 1 ≤ fuel →
    Sound t (fun item rest => Took (ItemText White) t item rest ∨ rest = [] ∧ Unclosed t item)
      (parseValue D fuel t)
  array : ∀ {t : Text}, wellEscaped t = true → t.length ≤ intMax → 2 * (t.length + 1) ≤ fuel →
    Sound (91 :: t) (Took (ItemText White) (91 :: t)) (parseArray D fuel (91 :: t))
  elements : ∀ {t : Text}, wellEscaped t = true → t.length ≤ intMax → 2 * t.length + 1 ≤ fuel →
    Sound t (Took (ChainText White) t) (parseElements D fuel t)
  object : ∀ {t : Text}, wellEscaped t = true → t.length ≤ intMax → 2 * (t.length + 1) ≤ fuel →
    Sound (123 :: t) (Took (ItemText White) (123 :: t)) (parseObject D fuel (123 :: t))
  members : ∀ {t : Text}, wellEscaped t = true → t.length ≤ intMax → 2 * t.length + 1 ≤ fuel →
    Sound t (Took (MembersText White) t) (parseMembers D fuel t)

lemma wellEscaped_numberText {t : Text} {n : Number D} (h : NumberText t n) (r : Text) :
    wellEscaped (t ++ r) = wellEscaped r := wellEscaped_append (h.ne (by decide)) r

/-- A word at the cursor. -/
lemma took_word {t lit : Text} {k : ℕ} {item : Item D} (h : t.take k = lit)
    (hwell : wellEscaped t = true) (hlit : ∀ c ∈ lit, c ≠ 92) (hitem : ItemText White lit item) :
    Took (ItemText White) t item (t.drop k) := by
  have ht : t = lit ++ t.drop k := by rw [← h, List.take_append_drop]
  refine ⟨lit, ht, hitem, ?_⟩
  rwa [← wellEscaped_append hlit, ← ht]

namespace SoundUpTo

variable {fuel : ℕ}

lemma value_succ (ih : SoundUpTo D fuel) {t : Text} (hwell : wellEscaped t = true)
    (hmax : t.length ≤ intMax) (hfuel : 2 * t.length + 1 ≤ fuel + 1) :
    Sound t (fun item rest => Took (ItemText White) t item rest ∨ rest = [] ∧ Unclosed t item)
      (parseValue D (fuel + 1) t) := by
  rw [parseValue]
  split_ifs with hnull hfalse htrue hquote hnumber harray hobject
  · exact .inl (took_word hnull hwell (forall_mem_of_all rfl) .null)
  · exact .inl (took_word hfalse hwell (forall_mem_of_all rfl) .false)
  · exact .inl (took_word htrue hwell (forall_mem_of_all rfl) .true)
  · obtain ⟨body, out, rest, hlit, rfl, hrest, hparse⟩ | ⟨body, out, hlit, rfl, hparse⟩ |
      ⟨hne, -⟩ := parseString_wellEscaped hwell hmax
    · rw [hparse]
      exact .inl ⟨34 :: (body ++ [34]), by simp, .string hlit, hrest⟩
    · rw [hparse]
      exact .inr ⟨rfl, body, out, hlit, rfl, rfl⟩
    · exact absurd hquote hne
  · rw [Bool.or_eq_true, decide_eq_true_eq] at hnumber
    obtain ⟨u, n, rest, rfl, hu, hparse⟩ | ⟨hparse, hexp⟩ :=
      exists_parseNumber (D := D) hnumber
    · rw [hparse]
      exact .inl ⟨u, rfl, .number hu, by rwa [← wellEscaped_numberText hu]⟩
    · rw [hparse]
      exact hexp
  · obtain ⟨u, rfl⟩ : ∃ u, t = 91 :: u := ⟨_, eq_cons_of_peek harray (by decide)⟩
    rw [wellEscaped_cons (by decide)] at hwell
    rw [List.length_cons] at hmax hfuel
    exact (ih.array hwell (by omega) (by omega)).imp fun _ _ h => .inl h
  · obtain ⟨u, rfl⟩ : ∃ u, t = 123 :: u := ⟨_, eq_cons_of_peek hobject (by decide)⟩
    rw [wellEscaped_cons (by decide)] at hwell
    rw [List.length_cons] at hmax hfuel
    exact (ih.object hwell (by omega) (by omega)).imp fun _ _ h => .inl h
  · exact List.suffix_refl t

/-- After an element comes white space, and then what `parseElements` takes. -/
lemma elements_skip (ih : SoundUpTo D fuel) {t : Text} (hwell : wellEscaped t = true)
    (hmax : t.length ≤ intMax) (hfuel : 2 * t.length + 1 ≤ fuel) :
    Sound t (Took (ChainText White) t) (parseElements D fuel (skip t)) := by
  obtain ⟨w, hw, ht, hskip, hlen⟩ := exists_white t
  refine ((ih.elements (t := skip t) (by rwa [← hskip]) (by omega) (by omega)).of_suffix
    (skip_suffix t)).imp ?_
  rintro next rest ⟨u, hu, hchain, hrest⟩
  exact ⟨w ++ u, by rw [List.append_assoc, ← hu, ← ht], hchain.white hw, hrest⟩

lemma members_skip (ih : SoundUpTo D fuel) {t : Text} (hwell : wellEscaped t = true)
    (hmax : t.length ≤ intMax) (hfuel : 2 * t.length + 1 ≤ fuel) :
    Sound t (Took (MembersText White) t) (parseMembers D fuel (skip t)) := by
  obtain ⟨w, hw, ht, hskip, hlen⟩ := exists_white t
  refine ((ih.members (t := skip t) (by rwa [← hskip]) (by omega) (by omega)).of_suffix
    (skip_suffix t)).imp ?_
  rintro next rest ⟨u, hu, hmembers, hrest⟩
  exact ⟨w ++ u, by rw [List.append_assoc, ← hu, ← ht], hmembers.white hw, hrest⟩

/-- A text that is used up has no room for the end of a list. -/
lemma elements_nil (hfuel : fuel ≠ 0) : parseElements D fuel (skip []) = .failed [] := by
  obtain ⟨fuel, rfl⟩ := Nat.exists_eq_succ_of_ne_zero hfuel
  rfl

lemma members_nil (hfuel : fuel ≠ 0) : parseMembers D fuel (skip []) = .failed [] := by
  obtain ⟨fuel, rfl⟩ := Nat.exists_eq_succ_of_ne_zero hfuel
  rfl

/-- White space, an element, and the elements after it. -/
lemma first {α : Type} (ih : SoundUpTo D fuel) (g : Item D → Chain D → α) {t : Text}
    (hwell : wellEscaped t = true) (hmax : t.length ≤ intMax)
    (hfuel : 2 * t.length + 1 ≤ fuel) :
    Sound t (Took (fun v a => ∃ w u u' item next, White w ∧ v = w ++ (u ++ u') ∧
        ItemText White u item ∧ ChainText White u' next ∧ a = g item next) t)
      ((parseValue D fuel (skip t)).bind fun item value =>
        (parseElements D fuel (skip value)).bind fun next value => .done (g item next) value) := by
  obtain ⟨w, hw, ht, hskip, hlen⟩ := exists_white t
  have hvalue := (ih.value (t := skip t) (by rwa [← hskip]) (by omega) (by omega)).of_suffix
    (skip_suffix t)
  refine hvalue.bind fun item rest htook => ?_
  rcases htook with ⟨u, hu, hitem, hrest⟩ | ⟨rfl, -⟩
  · have hlen' : rest.length ≤ (skip t).length := by rw [hu]; simp
    have hsuffix : rest <:+ t := (hu ▸ List.suffix_append u rest).trans (skip_suffix t)
    refine ((ih.elements_skip hrest (by omega) (by omega)).of_suffix hsuffix).bind
      fun next rest' htook => ?_
    obtain ⟨u', hu', hchain, hrest'⟩ := htook
    refine ⟨w ++ (u ++ u'), ?_, ⟨w, u, u', item, next, hw, rfl, hitem, hchain, rfl⟩, hrest'⟩
    calc t = w ++ skip t := ht
      _ = w ++ (u ++ (u' ++ rest')) := by rw [hu, hu']
      _ = w ++ (u ++ u') ++ rest' := by simp
  · rw [elements_nil (by omega)]
    exact List.nil_suffix

lemma array_succ (ih : SoundUpTo D fuel) {t : Text} (hwell : wellEscaped t = true)
    (hmax : t.length ≤ intMax) (hfuel : 2 * (t.length + 1) ≤ fuel + 1) :
    Sound (91 :: t) (Took (ItemText White) (91 :: t)) (parseArray D (fuel + 1) (91 :: t)) := by
  rw [parseArray, if_neg (by simp), List.tail_cons]
  simp only [skip_skip]
  split_ifs with hclose
  · obtain ⟨w, hw, ht, hskip, -⟩ := exists_white t
    have hrest := eq_cons_of_peek hclose (by decide)
    refine ⟨91 :: (w ++ [93]), ?_, .emptyArray hw, ?_⟩
    · rw [List.cons_append, List.append_assoc, List.singleton_append, ← hrest, ← ht]
    · rwa [hskip, hrest, wellEscaped_cons (by decide)] at hwell
  · refine ((ih.first (fun item next => Item.array (.cons item next)) hwell (by omega)
      (by omega)).of_suffix (List.suffix_cons 91 t)).imp ?_
    rintro _ rest ⟨v, rfl, ⟨w, u, u', item, next, hw, rfl, hitem, hchain, rfl⟩, hrest⟩
    exact ⟨91 :: (w ++ (u ++ u')), rfl, .array hw hitem hchain, hrest⟩

lemma elements_succ (ih : SoundUpTo D fuel) {t : Text} (hwell : wellEscaped t = true)
    (hmax : t.length ≤ intMax) (hfuel : 2 * t.length + 1 ≤ fuel + 1) :
    Sound t (Took (ChainText White) t) (parseElements D (fuel + 1) t) := by
  rw [parseElements]
  split_ifs with hcomma hclose
  · obtain ⟨t, rfl⟩ : ∃ u, t = 44 :: u := ⟨_, eq_cons_of_peek hcomma (by decide)⟩
    rw [wellEscaped_cons (by decide)] at hwell
    rw [List.length_cons] at hmax hfuel
    refine ((ih.first Chain.cons hwell (by omega) (by omega)).of_suffix
      (List.suffix_cons 44 t)).imp ?_
    rintro _ rest ⟨v, rfl, ⟨w, u, u', item, next, hw, rfl, hitem, hchain, rfl⟩, hrest⟩
    exact ⟨44 :: (w ++ (u ++ u')), rfl, .cons (w := []) (by simp [White]) hw hitem hchain, hrest⟩
  · obtain ⟨t, rfl⟩ : ∃ u, t = 93 :: u := ⟨_, eq_cons_of_peek hclose (by decide)⟩
    exact ⟨[93], rfl, .nil (w := []) (by simp [White]),
      by rwa [wellEscaped_cons (by decide)] at hwell⟩
  · exact List.suffix_refl t

/-- A name, a colon and a value. -/
lemma member (ih : SoundUpTo D fuel) {t : Text} (hwell : wellEscaped t = true)
    (hmax : t.length ≤ intMax) (hfuel : 2 * t.length + 1 ≤ fuel) :
    Sound t (fun m rest => Took (fun v m => MemberText White v m.1 m.2) t m rest ∨ rest = [])
      (parseMember D (fun value => parseValue D fuel value) t) := by
  rw [parseMember]
  obtain ⟨body, out, rest, hlit, rfl, hrest, hparse⟩ | ⟨body, out, hlit, rfl, hparse⟩ |
    ⟨hne, hparse⟩ := parseString_wellEscaped hwell hmax
  · rw [hparse, Parsed.bind_done]
    obtain ⟨w, hw, ht, hskip, hlen⟩ := exists_white rest
    have hsuffix : skip rest <:+ 34 :: (body ++ 34 :: rest) :=
      (skip_suffix rest).trans ⟨34 :: (body ++ [34]), by simp⟩
    split_ifs with hcolon
    · exact hsuffix
    · have hcolon' := eq_cons_of_peek (not_not.mp hcolon) (by decide)
      obtain ⟨w', hw', ht', hskip', hlen'⟩ := exists_white (skip rest).tail
      have hwell' : wellEscaped (skip (skip rest).tail) = true := by
        rw [hskip, hcolon', wellEscaped_cons (by decide)] at hrest
        rwa [← hskip']
      have hsuffix' : skip (skip rest).tail <:+ 34 :: (body ++ 34 :: rest) :=
        ((skip_suffix _).trans (List.tail_suffix _)).trans hsuffix
      have htail : (skip rest).tail.length ≤ (skip rest).length := by simp
      simp only [List.length_cons, List.length_append] at hmax hfuel
      refine ((ih.value hwell' (by omega) (by omega)).of_suffix hsuffix').bind
        fun item rest' htook => ?_
      refine htook.imp ?_ And.left
      rintro ⟨u, hu, hitem, hrest'⟩
      refine ⟨34 :: (body ++ 34 :: (w ++ 58 :: (w' ++ u))), ?_, .mk hlit hw hw' hitem, hrest'⟩
      calc 34 :: (body ++ 34 :: rest)
          = 34 :: (body ++ 34 :: (w ++ 58 :: (w' ++ (u ++ rest')))) := by
            rw [← hu, ← ht', ← hcolon', ← ht]
        _ = _ := by simp
  · rw [hparse, Parsed.bind_done]
    exact List.nil_suffix
  · rw [hparse]
    exact List.suffix_refl t

/-- White space, a member, and the members after it. -/
lemma firstMember {α : Type} (ih : SoundUpTo D fuel) (g : CString → Item D → Members D → α)
    {t : Text} (hwell : wellEscaped t = true) (hmax : t.length ≤ intMax)
    (hfuel : 2 * t.length + 1 ≤ fuel) :
    Sound t (Took (fun v a => ∃ w u u' string item next, White w ∧ v = w ++ (u ++ u') ∧
        MemberText White u string item ∧ MembersText White u' next ∧ a = g string item next) t)
      ((parseMember D (fun value => parseValue D fuel value) (skip t)).bind fun member value =>
        (parseMembers D fuel (skip value)).bind fun next value =>
          .done (g member.1 member.2 next) value) := by
  obtain ⟨w, hw, ht, hskip, hlen⟩ := exists_white t
  have hmember := (ih.member (t := skip t) (by rwa [← hskip]) (by omega) (by omega)).of_suffix
    (skip_suffix t)
  refine hmember.bind fun m rest htook => ?_
  rcases htook with ⟨u, hu, hitem, hrest⟩ | rfl
  · have hlen' : rest.length ≤ (skip t).length := by rw [hu]; simp
    have hsuffix : rest <:+ t := (hu ▸ List.suffix_append u rest).trans (skip_suffix t)
    refine ((ih.members_skip hrest (by omega) (by omega)).of_suffix hsuffix).bind
      fun next rest' htook => ?_
    obtain ⟨u', hu', hchain, hrest'⟩ := htook
    refine ⟨w ++ (u ++ u'), ?_, ⟨w, u, u', m.1, m.2, next, hw, rfl, hitem, hchain, rfl⟩, hrest'⟩
    calc t = w ++ skip t := ht
      _ = w ++ (u ++ (u' ++ rest')) := by rw [hu, hu']
      _ = w ++ (u ++ u') ++ rest' := by simp
  · rw [members_nil (by omega)]
    exact List.nil_suffix

lemma object_succ (ih : SoundUpTo D fuel) {t : Text} (hwell : wellEscaped t = true)
    (hmax : t.length ≤ intMax) (hfuel : 2 * (t.length + 1) ≤ fuel + 1) :
    Sound (123 :: t) (Took (ItemText White) (123 :: t)) (parseObject D (fuel + 1) (123 :: t)) := by
  rw [parseObject, if_neg (by simp), List.tail_cons]
  simp only [skip_skip]
  split_ifs with hclose
  · obtain ⟨w, hw, ht, hskip, -⟩ := exists_white t
    have hrest := eq_cons_of_peek hclose (by decide)
    refine ⟨123 :: (w ++ [125]), ?_, .emptyObject hw, ?_⟩
    · rw [List.cons_append, List.append_assoc, List.singleton_append, ← hrest, ← ht]
    · rwa [hskip, hrest, wellEscaped_cons (by decide)] at hwell
  · refine ((ih.firstMember (fun string item next => Item.object (.cons string item next)) hwell
      (by omega) (by omega)).of_suffix (List.suffix_cons 123 t)).imp ?_
    rintro _ rest ⟨v, rfl, ⟨w, u, u', string, item, next, hw, rfl, hitem, hnext, rfl⟩, hrest⟩
    exact ⟨123 :: (w ++ (u ++ u')), rfl, .object hw hitem hnext, hrest⟩

lemma members_succ (ih : SoundUpTo D fuel) {t : Text} (hwell : wellEscaped t = true)
    (hmax : t.length ≤ intMax) (hfuel : 2 * t.length + 1 ≤ fuel + 1) :
    Sound t (Took (MembersText White) t) (parseMembers D (fuel + 1) t) := by
  rw [parseMembers]
  split_ifs with hcomma hclose
  · obtain ⟨t, rfl⟩ : ∃ u, t = 44 :: u := ⟨_, eq_cons_of_peek hcomma (by decide)⟩
    rw [wellEscaped_cons (by decide)] at hwell
    rw [List.length_cons] at hmax hfuel
    refine ((ih.firstMember Members.cons hwell (by omega) (by omega)).of_suffix
      (List.suffix_cons 44 t)).imp ?_
    rintro _ rest ⟨v, rfl, ⟨w, u, u', string, item, next, hw, rfl, hitem, hnext, rfl⟩, hrest⟩
    exact ⟨44 :: (w ++ (u ++ u')), rfl, .cons (w := []) (by simp [White]) hw hitem hnext, hrest⟩
  · obtain ⟨t, rfl⟩ : ∃ u, t = 125 :: u := ⟨_, eq_cons_of_peek hclose (by decide)⟩
    exact ⟨[125], rfl, .nil (w := []) (by simp [White]),
      by rwa [wellEscaped_cons (by decide)] at hwell⟩
  · exact List.suffix_refl t

end SoundUpTo

theorem soundUpTo : ∀ fuel, SoundUpTo D fuel
  | 0 =>
    { value := fun _ _ h => absurd h (by omega)
      array := fun _ _ h => absurd h (by omega)
      elements := fun _ _ h => absurd h (by omega)
      object := fun _ _ h => absurd h (by omega)
      members := fun _ _ h => absurd h (by omega) }
  | fuel + 1 =>
    { value := fun hwell hmax hfuel => (soundUpTo fuel).value_succ hwell hmax hfuel
      array := fun hwell hmax hfuel => (soundUpTo fuel).array_succ hwell hmax hfuel
      elements := fun hwell hmax hfuel => (soundUpTo fuel).elements_succ hwell hmax hfuel
      object := fun hwell hmax hfuel => (soundUpTo fuel).object_succ hwell hmax hfuel
      members := fun hwell hmax hfuel => (soundUpTo fuel).members_succ hwell hmax hfuel }

/-- **What the parser accepts is the text of an item**, or a string that ends with the text. -/
theorem parseValue_sound {t : Text} {fuel : ℕ} (hwell : wellEscaped t = true)
    (hmax : t.length ≤ intMax) (hfuel : 2 * t.length + 1 ≤ fuel) :
    Sound t (fun item rest => Took (ItemText White) t item rest ∨ rest = [] ∧ Unclosed t item)
      (parseValue D fuel t) := (soundUpTo fuel).value hwell hmax hfuel

/-! ## Whole texts -/

/-- White space, the text of an item, white space; or a string without a closing quote. -/
def Accepted (value : Text) (item : Item D) : Prop :=
  ∃ w t w', White w ∧ White w' ∧ value = w ++ (t ++ w') ∧
    (ItemText White t item ∨ w' = [] ∧ Unclosed t item)

lemma skip_eq_nil {w : Text} (hw : White w) : skip w = [] := by
  have h := skip_append hw []
  rwa [List.append_nil, skip_nil] at h

lemma parseValue_accepted {w t w' : Text} {item : Item D} {fuel : ℕ} (hw : White w)
    (hw' : White w') (h : ItemText White t item ∨ w' = [] ∧ Unclosed t item)
    (hmax : t.length ≤ intMax) (hfuel : 2 * t.length + 1 ≤ fuel) :
    ∃ rest, White rest ∧ parseValue D fuel (skip (w ++ (t ++ w'))) = .done item rest := by
  rcases h with h | ⟨rfl, body, out, hlit, rfl, rfl⟩
  · have hends := numberEnds_white hw' (r := []) (by decide)
    rw [List.append_nil] at hends
    refine ⟨w', hw', ?_⟩
    rw [h.skip hw, parseValue_itemText h (follows_of_numberEnds hends item) hmax hfuel]
  · obtain ⟨fuel, rfl⟩ := Nat.exists_eq_succ_of_ne_zero (show fuel ≠ 0 by omega)
    refine ⟨[], by simp [White], ?_⟩
    rw [List.append_nil, skip_white hw (by decide), parseValue_string _ rfl,
      parseString_unclosed hlit hmax, Parsed.bind_done]

lemma parseWithOpts_sound (value : CString) (requireNullTerminated : Bool)
    (hwell : wellEscaped value.val = true) (hmax : value.val.length ≤ intMax) :
    Sound value.val (fun _ rest => rest <:+ value.val)
      (parseWithOpts D value requireNullTerminated) := by
  obtain ⟨w, hw, hvalue, hskip, hlen⟩ := exists_white value.val
  have h := @parseValue_sound D _ (skip value.val) (2 * value.val.length + 1) (by rwa [← hskip])
    (by omega) (by omega)
  refine (h.of_suffix (skip_suffix _)).bind fun item rest htook => ?_
  have hrest : rest <:+ value.val := by
    rcases htook with ⟨u, hu, -⟩ | ⟨rfl, -⟩
    · exact (hu ▸ List.suffix_append u rest).trans (skip_suffix _)
    · exact List.nil_suffix
  have hskip' := (skip_suffix rest).trans hrest
  split_ifs
  · exact hskip'
  · exact hskip'
  · exact hrest

/-- It returns, and the end it reports, or the place of the error, lies in `t`. -/
def StaysIn {α : Type} (t : Text) : Parsed α → Prop
  | .done _ rest => rest <:+ t
  | .failed ep => ep <:+ t
  | .fault => False
  | .outOfFuel => False

/-- What stands for an item is read as that item. -/
lemma parseWithOpts_accepted {value : CString} {item : Item D}
    (hmax : value.val.length ≤ intMax) (h : Accepted value.val item) :
    parseWithOpts D value true = .done item [] := by
  obtain ⟨w, t, w', hw, hw', hvalue, h⟩ := h
  have hlen : t.length ≤ value.val.length := by
    rw [hvalue, List.length_append, List.length_append]
    omega
  have hfuel : 2 * t.length + 1 ≤ 2 * value.val.length + 1 := by omega
  obtain ⟨rest, hrest, hparse⟩ := parseValue_accepted hw hw' h (hlen.trans hmax) hfuel
  rw [← hvalue] at hparse
  rw [parseWithOpts, hparse, Parsed.bind_done, if_pos rfl, skip_eq_nil hrest, if_pos rfl]

end SbusRemote.CJson
