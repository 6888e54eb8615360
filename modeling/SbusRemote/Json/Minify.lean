import SbusRemote.Json.RoundTrip
import SbusRemote.Json.Soundness

/-!
# Minifying

`cJSON_Minify` takes white space and comments out of a text.  It works in place; each byte it
writes it has just read, so it never writes over what is still to be read.  There is no result if
it reads past the terminator: at a multiline comment or a string that is not closed.

* `Squeezes` — a piece of text becomes another one, whatever stands behind it.
* `Blank`, `parse_minify` — a text with comments wherever white space may stand is made into one
  that the parser reads.
* `minify_print` — formatting is taken out again.
-/

namespace SbusRemote.CJson

/-! ## The code -/

/-- A double-slash comment, to the end of the line. -/
def skipLine (json : Text) : Text := json.dropWhile (· ≠ 10)

/-- A multiline comment. -/
def skipBlock : Text → Option Text
  | [] => none
  | c :: json => if c = 42 ∧ peek json = 47 then some json.tail else skipBlock json

/-- A string literal after its opening quote: what is copied, and what is left. -/
def copyLiteral : Text → Option (Text × Text)
  | [] => none
  | c :: json =>
      if c = 34 then some ([34], json)
      else if c = 92 then
        match json with
        | [] => none
        | e :: json => (copyLiteral json).map fun x => (92 :: e :: x.1, x.2)
      else (copyLiteral json).map fun x => (c :: x.1, x.2)

lemma skipBlock_suffix : ∀ {json rest : Text}, skipBlock json = some rest → rest <:+ json
  | c :: json, rest, h => by
      rw [skipBlock] at h
      split_ifs at h
      · obtain rfl := Option.some.inj h
        exact (List.tail_suffix json).trans (List.suffix_cons c json)
      · exact (skipBlock_suffix h).trans (List.suffix_cons c json)

/-- `copyLiteral` splits the text. -/
lemma copyLiteral_eq_some : ∀ {json into rest : Text}, copyLiteral json = some (into, rest) →
    json = into ++ rest
  | c :: json, into, rest, h => by
      rw [copyLiteral.eq_def] at h
      dsimp only at h
      split_ifs at h with hquote hslash
      · cases h
        rw [hquote]
        rfl
      · cases json with
        | nil => exact absurd h (by simp)
        | cons e json =>
            obtain ⟨⟨into', rest'⟩, hx, heq⟩ := Option.map_eq_some_iff.mp h
            cases heq
            rw [hslash, copyLiteral_eq_some hx]
            rfl
      · obtain ⟨⟨into', rest'⟩, hx, heq⟩ := Option.map_eq_some_iff.mp h
        cases heq
        rw [copyLiteral_eq_some hx]
        rfl

/-- `cJSON_Minify`: the text it leaves. -/
def minify : Text → Option Text
  | [] => some []
  | c :: json =>
      if c = 32 ∨ c = 9 ∨ c = 13 ∨ c = 10 then minify json
      else if c = 47 ∧ peek json = 47 then minify (skipLine json)
      else if c = 47 ∧ peek json = 42 then
        match _hskip : skipBlock json with
        | none => none
        | some rest => minify rest
      else if c = 34 then
        match _hcopy : copyLiteral json with
        | none => none
        | some (into, rest) => (minify rest).map fun u => 34 :: (into ++ u)
      else (minify json).map fun u => c :: u
termination_by json => json.length
decreasing_by
  · simp
  · exact Nat.lt_succ_of_le (List.dropWhile_suffix _).length_le
  · exact Nat.lt_succ_of_le (skipBlock_suffix _hskip).length_le
  · rw [copyLiteral_eq_some _hcopy]
    simp only [List.length_cons, List.length_append]
    omega
  · simp

lemma minify_block {json : Text} (h : peek json = 42) :
    minify (47 :: json) = (skipBlock json).bind minify := by
  rw [minify.eq_2, if_neg (by decide), if_neg (by simp [h]), if_pos ⟨rfl, h⟩]
  split <;> rename_i h' <;> rw [h'] <;> rfl

lemma minify_literal (json : Text) : minify (34 :: json)
    = (copyLiteral json).bind fun x => (minify x.2).map fun u => 34 :: (x.1 ++ u) := by
  rw [minify.eq_2, if_neg (by decide), if_neg (by simp), if_neg (by simp), if_pos rfl]
  split <;> rename_i h' <;> rw [h'] <;> rfl

/-- Nothing is added: the bytes left are bytes of the text, in order. -/
theorem minify_sublist {t u : Text} (h : minify t = some u) : u.Sublist t := by
  induction t using minify.induct generalizing u with
  | case1 =>
      rw [minify] at h
      obtain rfl := Option.some.inj h
      exact .refl []
  | case2 c json hspace ih =>
      rw [minify.eq_2, if_pos hspace] at h
      exact (ih h).cons c
  | case3 c json hspace hline ih =>
      rw [minify.eq_2, if_neg hspace, if_pos hline] at h
      exact ((ih h).trans (List.dropWhile_suffix _).sublist).cons c
  | case4 c json hspace hline hblock hskip =>
      obtain ⟨rfl, hpeek⟩ := hblock
      rw [minify_block hpeek, hskip] at h
      exact absurd h (by simp)
  | case5 c json hspace hline hblock rest hskip ih =>
      obtain ⟨rfl, hpeek⟩ := hblock
      rw [minify_block hpeek, hskip] at h
      exact ((ih h).trans (skipBlock_suffix hskip).sublist).cons 47
  | case6 json hcopy =>
      rw [minify_literal, hcopy] at h
      exact absurd h (by simp)
  | case7 json into rest hcopy _ _ _ ih =>
      rw [minify_literal, hcopy] at h
      obtain ⟨v, hv, rfl⟩ := Option.map_eq_some_iff.mp h
      rw [copyLiteral_eq_some hcopy]
      exact ((ih hv).append_left into).cons_cons 34
  | case8 c json hspace hline hblock hquote ih =>
      rw [minify.eq_2, if_neg hspace, if_neg hline, if_neg hblock, if_neg hquote] at h
      obtain ⟨v, hv, rfl⟩ := Option.map_eq_some_iff.mp h
      exact (ih hv).cons_cons c

/-! ## Pieces of a text -/

/-- `t` becomes `u`, whatever stands behind it. -/
def Squeezes (t u : Text) : Prop := ∀ r, minify (t ++ r) = (minify r).map fun v => u ++ v

lemma squeezes_nil : Squeezes [] [] := fun r => by
  rw [List.nil_append]
  cases minify r <;> rfl

lemma Squeezes.append {t t' u u' : Text} (h : Squeezes t u) (h' : Squeezes t' u') :
    Squeezes (t ++ t') (u ++ u') := fun r => by
  rw [List.append_assoc, h, h', Option.map_map]
  congr 1
  funext v
  exact (List.append_assoc u u' v).symm

/-- A piece that is alone becomes what it becomes in front of others. -/
lemma Squeezes.minify {t u : Text} (h : Squeezes t u) : CJson.minify t = some u := by
  have key := h []
  rwa [List.append_nil, CJson.minify, Option.map_some, List.append_nil] at key

/-- Bytes `cJSON_Minify` just copies. -/
def Plain (c : UInt8) : Prop := c ∉ ([32, 9, 13, 10, 47, 34] : Text)

instance (c : UInt8) : Decidable (Plain c) := inferInstanceAs (Decidable (c ∉ _))

lemma squeezes_byte {c : UInt8} (h : Plain c) : Squeezes [c] [c] := fun r => by
  simp only [Plain, List.mem_cons, List.not_mem_nil, or_false, not_or] at h
  obtain ⟨h₁, h₂, h₃, h₄, hslash, hquote⟩ := h
  rw [List.singleton_append, CJson.minify.eq_2, if_neg (by simp [h₁, h₂, h₃, h₄]),
    if_neg (by simp [hslash]), if_neg (by simp [hslash]), if_neg hquote]
  rfl

lemma squeezes_plain {t : Text} (h : ∀ c ∈ t, Plain c) : Squeezes t t := by
  induction t with
  | nil => exact squeezes_nil
  | cons c t ih =>
      obtain ⟨hc, ht⟩ := List.forall_mem_cons.mp h
      exact (squeezes_byte hc).append (ih ht)

lemma squeezes_space {c : UInt8} (h : c = 32 ∨ c = 9 ∨ c = 13 ∨ c = 10) : Squeezes [c] [] :=
  fun r => by
    rw [List.singleton_append, CJson.minify.eq_2, if_pos h]
    cases CJson.minify r <;> rfl

lemma squeezes_spaces {w : Text} (h : ∀ c ∈ w, c = 32 ∨ c = 9 ∨ c = 13 ∨ c = 10) :
    Squeezes w [] := by
  induction w with
  | nil => exact squeezes_nil
  | cons c w ih =>
      obtain ⟨hc, hw⟩ := List.forall_mem_cons.mp h
      exact (squeezes_space hc).append (ih hw)

/-! ## Comments -/

lemma squeezes_line {s : Text} (h : 10 ∉ s) : Squeezes (47 :: 47 :: (s ++ [10])) [] := fun r => by
  have hline : skipLine (47 :: (s ++ 10 :: r)) = 10 :: r := by
    have hs : ∀ c ∈ 47 :: s, decide (c ≠ 10) = true := by
      refine List.forall_mem_cons.mpr ⟨by decide, fun c hc => ?_⟩
      simpa using fun h' : c = 10 => h (h' ▸ hc)
    rw [skipLine, ← List.cons_append, List.dropWhile_append_of_pos hs,
      List.dropWhile_cons_of_neg (by simp)]
  have htext : 47 :: 47 :: (s ++ [10]) ++ r = 47 :: 47 :: (s ++ 10 :: r) := by simp
  rw [htext, CJson.minify.eq_2, if_neg (by decide), if_pos ⟨rfl, rfl⟩, hline]
  exact squeezes_space (.inr (.inr (.inr rfl))) r

/-- The last line of a text has no end of its own. -/
lemma minify_lastLine {s : Text} (h : 10 ∉ s) : CJson.minify (47 :: 47 :: s) = some [] := by
  have hline : skipLine (47 :: s) = [] := by
    rw [skipLine, List.dropWhile_eq_nil_iff]
    refine List.forall_mem_cons.mpr ⟨by decide, fun c hc => ?_⟩
    simpa using fun h' : c = 10 => h (h' ▸ hc)
  rw [CJson.minify.eq_2, if_neg (by decide), if_pos ⟨rfl, rfl⟩, hline, CJson.minify]

/-- A multiline comment ends where `*/` comes first. -/
lemma skipBlock_append {s : Text} (h : ¬[42, 47] <:+: s ++ [42]) (r : Text) :
    skipBlock (s ++ 42 :: 47 :: r) = some r := by
  induction s with
  | nil => rfl
  | cons c s ih =>
      have hs : ¬[42, 47] <:+: s ++ [42] := fun h' => h (h'.trans (List.suffix_cons c _).isInfix)
      rw [List.cons_append, skipBlock, if_neg, ih hs]
      rintro ⟨rfl, hpeek⟩
      refine h (List.IsPrefix.isInfix ?_)
      cases s with
      | nil => exact absurd hpeek (by simp)
      | cons d s =>
          obtain rfl : d = 47 := hpeek
          exact ⟨s ++ [42], rfl⟩

lemma squeezes_block {s : Text} (h : ¬[42, 47] <:+: 42 :: (s ++ [42])) :
    Squeezes (47 :: 42 :: (s ++ [42, 47])) [] := fun r => by
  have hskip := skipBlock_append (s := 42 :: s) h r
  have htext : 47 :: 42 :: (s ++ [42, 47]) ++ r = 47 :: (42 :: s ++ 42 :: 47 :: r) := by simp
  rw [htext, minify_block rfl, hskip, Option.bind_some]
  cases CJson.minify r <;> rfl

/-- The `*` that opens a comment may close it. -/
lemma squeezes_short : Squeezes [47, 42, 47] [] := fun r => by
  have hskip : skipBlock (42 :: 47 :: r) = some r := rfl
  have htext : [47, 42, 47] ++ r = 47 :: 42 :: 47 :: r := rfl
  rw [htext, minify_block rfl, hskip, Option.bind_some]
  cases CJson.minify r <;> rfl

/-! ## Strings -/

lemma copyLiteral_byte {c : UInt8} (h : c ≠ 34 ∧ c ≠ 92) (t : Text) :
    copyLiteral (c :: t) = (copyLiteral t).map fun x => (c :: x.1, x.2) := by
  rw [copyLiteral.eq_def]
  simp [h.1, h.2]

lemma copyLiteral_escape (e : UInt8) (t : Text) :
    copyLiteral (92 :: e :: t) = (copyLiteral t).map fun x => (92 :: e :: x.1, x.2) := by
  rw [copyLiteral.eq_def]
  simp

lemma copyLiteral_append {h : Text} (hh : ∀ c ∈ h, c ≠ 34 ∧ c ≠ 92 ∧ c ≠ 0) (t : Text) :
    copyLiteral (h ++ t) = (copyLiteral t).map fun x => (h ++ x.1, x.2) := by
  induction h with
  | nil => simp
  | cons c h ih =>
      obtain ⟨hc, hh⟩ := List.forall_mem_cons.mp hh
      rw [List.cons_append, copyLiteral_byte ⟨hc.1, hc.2.1⟩, ih hh, Option.map_map]
      rfl

/-- A `\u` escape is copied as it stands. -/
lemma copyLiteral_hex {h : Text} {uc : ℕ} (hh : hexValue h = some uc) (t : Text) :
    copyLiteral (92 :: 117 :: (h ++ t))
      = (copyLiteral t).map fun x => (92 :: 117 :: (h ++ x.1), x.2) := by
  obtain ⟨a, b, c, d, -, -, hne⟩ := hexValue_eq_some hh
  rw [copyLiteral_escape, copyLiteral_append hne, Option.map_map]
  rfl

/-- **A string is copied as it stands**, up to its closing quote. -/
lemma copyLiteral_literal {body out : Text} (h : Literal body out) (r : Text) :
    copyLiteral (body ++ 34 :: r) = some (body ++ [34], r) := by
  induction h with
  | nil =>
      rw [List.nil_append, copyLiteral.eq_def]
      simp
  | byte h₁ h₂ _ ih => rw [List.cons_append, copyLiteral_byte ⟨h₁, h₂⟩, ih]; rfl
  | escape _ _ ih => rw [List.cons_append, List.cons_append, copyLiteral_escape, ih]; rfl
  | character hh _ _ _ _ ih | nothing hh _ _ ih | unpaired hh _ _ _ ih =>
      simp only [List.cons_append, List.append_assoc]
      rw [copyLiteral_hex hh, ih]
      simp
  | pair hh _ hh' _ _ ih | mispaired hh _ hh' _ _ ih =>
      simp only [List.cons_append, List.append_assoc]
      rw [copyLiteral_hex hh, copyLiteral_hex hh', ih]
      simp

lemma squeezes_literal {body out : Text} (h : Literal body out) :
    Squeezes (34 :: (body ++ [34])) (34 :: (body ++ [34])) := fun r => by
  have hcopy := copyLiteral_literal h r
  have htext : 34 :: (body ++ [34]) ++ r = 34 :: (body ++ 34 :: r) := by simp
  rw [htext, minify_literal, hcopy]
  rfl

/-! ## Texts with comments -/

/-- White space and comments.  A multiline comment ends at the first `*/`, and its own `*` may be
the one: `/*/` is a whole comment, so the text inside of another one does not start with a slash. -/
inductive Blank : Text → Prop
  | nil : Blank []
  | white {c : UInt8} {w : Text} : c ≤ 32 → Blank w → Blank (c :: w)
  | line {s w : Text} : 10 ∉ s → Blank w → Blank (47 :: 47 :: (s ++ 10 :: w))
  | block {s w : Text} : ¬[42, 47] <:+: 42 :: (s ++ [42]) → Blank w →
      Blank (47 :: 42 :: (s ++ 42 :: 47 :: w))
  | short {w : Text} : Blank w → Blank (47 :: 42 :: 47 :: w)

/-- What may stand behind the item: at the end of the text a comment needs no new line. -/
inductive BlankEnd : Text → Prop
  | blank {w : Text} : Blank w → BlankEnd w
  | line {s w : Text} : 10 ∉ s → Blank w → BlankEnd (w ++ 47 :: 47 :: s)

lemma white_nil : White [] := by simp [White]

lemma white_cons {c : UInt8} {w : Text} (hc : c ≤ 32) (hw : White w) : White (c :: w) :=
  List.forall_mem_cons.mpr ⟨hc, hw⟩

/-- What is left of white space and comments is white space. -/
lemma Blank.squeezes {w : Text} (h : Blank w) : ∃ v, White v ∧ Squeezes w v := by
  induction h with
  | nil => exact ⟨[], white_nil, squeezes_nil⟩
  | @white c w hc _ ih =>
      obtain ⟨v, hv, hs⟩ := ih
      by_cases hspace : c = 32 ∨ c = 9 ∨ c = 13 ∨ c = 10
      · exact ⟨v, hv, (squeezes_space hspace).append hs⟩
      · -- the parser passes over it all the same
        have hplain : Plain c := by
          simp only [not_or] at hspace
          simp only [Plain, List.mem_cons, List.not_mem_nil, or_false, not_or]
          refine ⟨hspace.1, hspace.2.1, hspace.2.2.1, hspace.2.2.2, ?_, ?_⟩ <;>
            · rintro rfl
              exact absurd hc (by decide)
        exact ⟨c :: v, white_cons hc hv, (squeezes_byte hplain).append hs⟩
  | @line s w hnl _ ih =>
      obtain ⟨v, hv, hs⟩ := ih
      have key := (squeezes_line hnl).append hs
      exact ⟨v, hv, by simpa using key⟩
  | @block s w hs' _ ih =>
      obtain ⟨v, hv, hs⟩ := ih
      have key := (squeezes_block hs').append hs
      exact ⟨v, hv, by simpa using key⟩
  | short _ ih =>
      obtain ⟨v, hv, hs⟩ := ih
      exact ⟨v, hv, squeezes_short.append hs⟩

lemma BlankEnd.minify {w : Text} (h : BlankEnd w) : ∃ v, White v ∧ CJson.minify w = some v := by
  cases h with
  | blank h =>
      obtain ⟨v, hv, hs⟩ := h.squeezes
      exact ⟨v, hv, hs.minify⟩
  | @line s w hnl h =>
      obtain ⟨v, hv, hs⟩ := h.squeezes
      refine ⟨v, hv, ?_⟩
      rw [hs, minify_lastLine hnl, Option.map_some, List.append_nil]

section

variable {D : Type} [CDouble D]

lemma squeezes_number {t : Text} {n : Number D} (h : NumberText t n) : Squeezes t t := by
  have hbytes : ∀ b ∈ ([32, 9, 13, 10, 47, 34] : Text),
      Decimal.isDigit b = false ∧ b ∉ ([43, 45, 46, 69, 101] : Text) := forall_mem_of_all rfl
  exact squeezes_plain fun c hc hmem => h.ne (hbytes c hmem) c hc rfl

mutual

/-- **Comments are taken out of the text of an item.** -/
theorem ItemText.squeezes : ∀ {t : Text} {item : Item D}, ItemText Blank t item →
    ∃ u, ItemText White u item ∧ Squeezes t u
  | _, _, .null => ⟨_, .null, squeezes_plain (forall_mem_of_all rfl)⟩
  | _, _, .false => ⟨_, .false, squeezes_plain (forall_mem_of_all rfl)⟩
  | _, _, .true => ⟨_, .true, squeezes_plain (forall_mem_of_all rfl)⟩
  | _, _, .number h => ⟨_, .number h, squeezes_number h⟩
  | _, _, .string h => ⟨_, .string h, squeezes_literal h⟩
  | _, _, .emptyArray hw => by
      obtain ⟨v, hv, hs⟩ := hw.squeezes
      exact ⟨_, .emptyArray hv, (squeezes_byte (by decide)).append
        (hs.append (squeezes_byte (by decide)))⟩
  | _, _, .array hw ht hu => by
      obtain ⟨v, hv, hs⟩ := hw.squeezes
      obtain ⟨t', ht', hst⟩ := ht.squeezes
      obtain ⟨u', hu', hsu⟩ := hu.squeezes
      exact ⟨_, .array hv ht' hu', (squeezes_byte (by decide)).append (hs.append (hst.append hsu))⟩
  | _, _, .emptyObject hw => by
      obtain ⟨v, hv, hs⟩ := hw.squeezes
      exact ⟨_, .emptyObject hv, (squeezes_byte (by decide)).append
        (hs.append (squeezes_byte (by decide)))⟩
  | _, _, .object hw ht hu => by
      obtain ⟨v, hv, hs⟩ := hw.squeezes
      obtain ⟨t', ht', hst⟩ := ht.squeezes
      obtain ⟨u', hu', hsu⟩ := hu.squeezes
      exact ⟨_, .object hv ht' hu', (squeezes_byte (by decide)).append (hs.append (hst.append hsu))⟩

theorem ChainText.squeezes : ∀ {t : Text} {next : Chain D}, ChainText Blank t next →
    ∃ u, ChainText White u next ∧ Squeezes t u
  | _, _, .nil hw => by
      obtain ⟨v, hv, hs⟩ := hw.squeezes
      exact ⟨_, .nil hv, hs.append (squeezes_byte (by decide))⟩
  | _, _, .cons hw hw' ht hu => by
      obtain ⟨v, hv, hs⟩ := hw.squeezes
      obtain ⟨v', hv', hs'⟩ := hw'.squeezes
      obtain ⟨t', ht', hst⟩ := ht.squeezes
      obtain ⟨u', hu', hsu⟩ := hu.squeezes
      exact ⟨_, .cons hv hv' ht' hu', hs.append ((squeezes_byte (by decide)).append
        (hs'.append (hst.append hsu)))⟩

theorem MemberText.squeezes : ∀ {t : Text} {string : CString} {item : Item D},
    MemberText Blank t string item → ∃ u, MemberText White u string item ∧ Squeezes t u
  | _, _, _, .mk hlit hw hw' ht => by
      obtain ⟨v, hv, hs⟩ := hw.squeezes
      obtain ⟨v', hv', hs'⟩ := hw'.squeezes
      obtain ⟨t', ht', hst⟩ := ht.squeezes
      refine ⟨_, .mk hlit hv hv' ht', ?_⟩
      have key := (squeezes_literal hlit).append (hs.append
        ((squeezes_byte (c := 58) (by decide)).append (hs'.append hst)))
      simpa using key

theorem MembersText.squeezes : ∀ {t : Text} {next : Members D}, MembersText Blank t next →
    ∃ u, MembersText White u next ∧ Squeezes t u
  | _, _, .nil hw => by
      obtain ⟨v, hv, hs⟩ := hw.squeezes
      exact ⟨_, .nil hv, hs.append (squeezes_byte (by decide))⟩
  | _, _, .cons hw hw' ht hu => by
      obtain ⟨v, hv, hs⟩ := hw.squeezes
      obtain ⟨v', hv', hs'⟩ := hw'.squeezes
      obtain ⟨t', ht', hst⟩ := ht.squeezes
      obtain ⟨u', hu', hsu⟩ := hu.squeezes
      exact ⟨_, .cons hv hv' ht' hu', hs.append ((squeezes_byte (by decide)).append
        (hs'.append (hst.append hsu)))⟩

end

/-- A text with comments: the text of an item between white space and comments. -/
def Commented (value : Text) (item : Item D) : Prop :=
  ∃ w t w', Blank w ∧ ItemText Blank t item ∧ BlankEnd w' ∧ value = w ++ (t ++ w')

/-- **A text with comments is made into one the parser reads**, with the same item. -/
theorem parse_minify (value : CString) (item : Item D) (h : Commented value.val item)
    (hmax : value.val.length ≤ intMax) :
    ∃ text : CString, minify value.val = some text.val ∧
      parseWithOpts D text true = .done item [] := by
  obtain ⟨w, t, w', hw, ht, hw', hvalue⟩ := h
  obtain ⟨v, hv, hs⟩ := hw.squeezes
  obtain ⟨u, hu, hst⟩ := ht.squeezes
  obtain ⟨v', hv', hend⟩ := hw'.minify
  have hmin : CJson.minify value.val = some (v ++ (u ++ v')) := by
    rw [hvalue, hs, hst, hend]
    rfl
  have hsub := minify_sublist hmin
  refine ⟨⟨_, fun h => value.property (hsub.subset h)⟩, hmin, ?_⟩
  exact parseWithOpts_accepted (hsub.length_le.trans hmax) ⟨v, u, v', hv, hv', rfl, .inl hu⟩

/-- `/*{*/[null]//}`. -/
theorem parse_minify_array : ∃ text : CString,
    minify [47, 42, 123, 42, 47, 91, 110, 117, 108, 108, 93, 47, 47, 125] = some text.val ∧
      parseWithOpts ℚ text true = .done (.array (.cons .null .nil)) [] := by
  refine parse_minify ⟨[47, 42, 123, 42, 47, 91, 110, 117, 108, 108, 93, 47, 47, 125], by decide⟩ _
    ⟨[47, 42, 123, 42, 47], [91, 110, 117, 108, 108, 93], [47, 47, 125], ?_, ?_, ?_, rfl⟩
    (by decide)
  · exact .block (s := [123]) (w := []) (by decide) .nil
  · exact .array (w := []) (t := nullText) (u := [93]) .nil .null (.nil (w := []) .nil)
  · exact .line (s := [125]) (w := []) (by decide) .nil

/-! ## Formatting is taken out -/

lemma squeezes_formatted {w : Text} (h : ∀ c ∈ w, c = 32 ∨ c = 9 ∨ c = 13 ∨ c = 10) :
    Squeezes (formatted true w) (formatted false w) := squeezes_spaces h

lemma newline_spaces (n : ℕ) : ∀ c ∈ 10 :: tabs n, c = 32 ∨ c = 9 ∨ c = 13 ∨ c = 10 := by
  refine List.forall_mem_cons.mpr ⟨by decide, fun c hc => ?_⟩
  rw [List.eq_of_mem_replicate hc]
  decide

/-- `inf` and `nan` are copied too. -/
lemma squeezes_doubleText (x : DoubleText) : Squeezes x.text x.text := by
  have hbytes : ∀ b ∈ ([32, 9, 13, 10, 47, 34] : Text), Decimal.isDigit b = false ∧
      b ∉ ([43, 45, 46, 101, 97, 102, 105, 110] : Text) := forall_mem_of_all rfl
  exact squeezes_plain fun c hc hmem => x.ne (hbytes c hmem) c hc rfl

lemma squeezes_quoted (s : CString) : Squeezes (quoted s) (quoted s) :=
  squeezes_literal (literal_escape s)

mutual

/-- **What is formatted becomes what is not.** -/
theorem squeezes_render : ∀ (depth : ℕ) (item : Item D),
    Squeezes (render true depth item) (render false depth item)
  | _, .null => squeezes_plain (t := nullText) (forall_mem_of_all rfl)
  | _, .false => squeezes_plain (t := falseText) (forall_mem_of_all rfl)
  | _, .true => squeezes_plain (t := trueText) (forall_mem_of_all rfl)
  | _, .number n => squeezes_doubleText (printNumber n).2
  | _, .string s => squeezes_quoted s
  | _, .array .nil => squeezes_plain (t := [91, 93]) (forall_mem_of_all rfl)
  | depth, .array (.cons item next) =>
      (squeezes_byte (by decide)).append
        ((squeezes_render (depth + 1) item).append (squeezes_renderChain (depth + 1) next))
  | depth, .object .nil =>
      (squeezes_byte (by decide)).append
        ((squeezes_formatted (newline_spaces _)).append (squeezes_byte (by decide)))
  | depth, .object (.cons string item next) =>
      (squeezes_byte (by decide)).append ((squeezes_formatted (newline_spaces _)).append
        ((squeezes_quoted string).append ((squeezes_byte (by decide)).append
          ((squeezes_formatted (w := [9]) (forall_mem_of_all rfl)).append
            ((squeezes_render (depth + 1) item).append
              (squeezes_renderMembers (depth + 1) next))))))

theorem squeezes_renderChain : ∀ (depth : ℕ) (next : Chain D),
    Squeezes (renderChain true depth next) (renderChain false depth next)
  | _, .nil => squeezes_byte (by decide)
  | depth, .cons item next =>
      (squeezes_byte (by decide)).append
        ((squeezes_formatted (w := [32]) (forall_mem_of_all rfl)).append
          ((squeezes_render depth item).append (squeezes_renderChain depth next)))

theorem squeezes_renderMembers : ∀ (depth : ℕ) (next : Members D),
    Squeezes (renderMembers true depth next) (renderMembers false depth next)
  | _, .nil => (squeezes_formatted (newline_spaces _)).append (squeezes_byte (by decide))
  | depth, .cons string item next =>
      (squeezes_byte (by decide)).append ((squeezes_formatted (newline_spaces _)).append
        ((squeezes_quoted string).append ((squeezes_byte (by decide)).append
          ((squeezes_formatted (w := [9]) (forall_mem_of_all rfl)).append
            ((squeezes_render depth item).append (squeezes_renderMembers depth next))))))

end

/-- **`cJSON_Minify` undoes formatting**: what it makes of the output of `cJSON_Print` is the output
of `cJSON_PrintUnformatted`. -/
theorem minify_print (item : Item D) (hfits : item.All Number.Fits)
    (hsize : Printable (render true 0 item).length) :
    ∃ text text' : CString, print item = some text.val ∧ printUnformatted item = some text'.val ∧
      minify text.val = some text'.val := by
  have hmin := (squeezes_render 0 item).minify
  have hsize' := hsize.mono (minify_sublist hmin).length_le
  exact ⟨rendered true item, rendered false item, printValue_eq_render true 0 item hfits hsize,
    printValue_eq_render false 0 item hfits hsize', hmin⟩

theorem minify_print_oneMember : ∃ text text' : CString, print oneMember = some text.val ∧
    printUnformatted oneMember = some text'.val ∧ minify text.val = some text'.val :=
  minify_print oneMember oneMember_fits (oneMember_printable true)

end

end SbusRemote.CJson
