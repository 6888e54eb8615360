import SbusRemote.Json.Exact
import SbusRemote.Json.Buffer

/-!
# There and back

What the printer and the parser do together.

**Memory.**  `Number.Moderate.fits` says that the 2, 21 and 64 bytes `print_number` asks for are
enough for any finite `double`; so printing never writes outside its allocations,
`print_in_bounds`.

**Text.**  `print_parse` says that `cJSON_Parse` reads back what `cJSON_Print` and
`cJSON_PrintUnformatted` wrote, and `printBuffered_print` that `cJSON_PrintBuffered` writes the
same, whatever size it starts from.
-/

namespace SbusRemote.CJson

/-! ## Numbers fit -/

/-- `sprintf` never writes outside what `print_number` allocates. -/
lemma Number.Moderate.fits {n : Number ℚ} (h : n.Moderate) : n.Fits := by
  rw [Number.Fits, printNumber_exact, DoubleText.text, exactText]
  split_ifs with hzero hint hfloor hrange
  · decide
  · obtain ⟨hnear, htop, hlow⟩ := hint
    have heps : epsilon ≤ 1 := epsilon_lt.le.trans (by norm_num)
    have hlt : |(n.valueint : ℚ)| < 10 ^ 10 := by
      rw [abs_le] at hnear
      exact abs_lt.mpr ⟨by norm_num; linarith, by norm_num; linarith⟩
    have hdigits : n.valueint.natAbs < 10 ^ 10 := by
      rw [← Nat.cast_lt (α := ℚ), Nat.cast_natAbs]
      exact_mod_cast hlt
    have hlen := Decimal.length_ofInt_le (by decide) hdigits
    dsimp only
    omega
  · exact Nat.succ_le_succ (Decimal.length_fixed_le 0 hfloor.2.le)
  · have hexp : (Decimal.significand 6 n.valuedouble).2.natAbs < 10 ^ 3 :=
      (h.natAbs_exponent hzero hint).trans_lt (by norm_num)
    have hlen := Decimal.length_scientific_le 6 hzero (by decide) hexp
    dsimp only
    omega
  · rw [not_or, not_lt, not_lt] at hrange
    have hlen := Decimal.length_fixed_le 6 hrange.2
    dsimp only
    omega

mutual

/-- What holds of all numbers implies what follows from it. -/
lemma Item.All.imp {P Q : Number ℚ → Prop} (h : ∀ n, P n → Q n) :
    ∀ {item : Item ℚ}, item.All P → item.All Q
  | .null, _ | .false, _ | .true, _ | .string _, _ => trivial
  | .number n, hP => h n hP
  | .array _, hP => Chain.All.imp h hP
  | .object _, hP => Members.All.imp h hP

lemma Chain.All.imp {P Q : Number ℚ → Prop} (h : ∀ n, P n → Q n) :
    ∀ {child : Chain ℚ}, child.All P → child.All Q
  | .nil, _ => trivial
  | .cons _ _, hP => ⟨Item.All.imp h hP.1, Chain.All.imp h hP.2⟩

lemma Members.All.imp {P Q : Number ℚ → Prop} (h : ∀ n, P n → Q n) :
    ∀ {child : Members ℚ}, child.All P → child.All Q
  | .nil, _ => trivial
  | .cons _ _ _, hP => ⟨Item.All.imp h hP.1, Members.All.imp h hP.2⟩

end

/-! ## Texts -/

/-- `{"x":7}`. -/
def oneMember : Item ℚ := .object (.cons ⟨[120], by decide⟩ (.number ⟨7, 7⟩) .nil)

lemma oneMember_inRange : oneMember.All fun n => InRange n.valuedouble := ⟨inRange_seven, trivial⟩

lemma oneMember_fits : oneMember.All Number.Fits :=
  oneMember_inRange.imp fun _ h => (moderate_of_inRange h).fits

lemma oneMember_finite : oneMember.All Number.Finite :=
  oneMember_inRange.imp fun _ h => (moderate_of_inRange h).finite

lemma oneMember_printable (fmt : Bool) : Printable (render fmt 0 oneMember).length := by
  have hnumber : ((printNumber (⟨7, 7⟩ : Number ℚ)).2.text).length ≤ 63 :=
    Nat.le_of_succ_le_succ (oneMember_fits.1.trans (printNumber_size _))
  have hquoted : quoted ⟨[120], by decide⟩ = [34, 120, 34] := by decide
  simp only [oneMember, render, renderMembers, hquoted, Printable, List.length_cons,
    List.length_append, length_formatted, length_tabs, List.length_nil, intMax]
  split_ifs <;> omega

/-- **Printing stays inside its memory.**  Each text that is written on the way, of a number, of a
string or of all that is below a node, fits into what was allocated for it. -/
theorem print_in_bounds (fmt : Bool) (depth : ℕ) (item : Item ℚ)
    (hrange : item.All fun n => InRange n.valuedouble)
    (hsize : Printable (render fmt depth item).length) :
    printValue fmt depth item = some (render fmt depth item) :=
  printValue_eq_render fmt depth item (hrange.imp fun _ h => (moderate_of_inRange h).fits) hsize

theorem print_in_bounds_oneMember : printValue true 0 oneMember = some (render true 0 oneMember) :=
  print_in_bounds true 0 oneMember oneMember_inRange (oneMember_printable true)

section

variable {D : Type} [CDouble D]

/-- A text that can be printed is short enough to be read. -/
lemma Printable.le_intMax {len : ℕ} (h : Printable len) : len ≤ intMax := by
  rw [Printable] at h
  omega

/-- **Printing and parsing.**  The text of an item whose numbers are finite, with or without
formatting, is read back as the same item with each number replaced by what its text shows, and is
read to its end. -/
theorem print_parse (fmt requireNullTerminated : Bool) (item : Item D)
    (hfinite : item.All Number.Finite) (hfits : item.All Number.Fits)
    (hsize : Printable (render fmt 0 item).length) :
    ∃ text : CString, printValue fmt 0 item = some text.val ∧
      parseWithOpts D text requireNullTerminated = .done (item.map Number.shown) [] :=
  ⟨rendered fmt item, printValue_eq_render fmt 0 item hfits hsize,
    parse_render fmt requireNullTerminated item hfinite hsize.le_intMax⟩

theorem print_parse_oneMember : ∃ text : CString, printValue true 0 oneMember = some text.val ∧
    parseWithOpts ℚ text true = .done (oneMember.map Number.shown) [] :=
  print_parse true true oneMember oneMember_finite oneMember_fits (oneMember_printable true)

/-- **The buffered path agrees with the plain one**, whatever the blocks held before and whatever
the size of the first one is. -/
theorem printBuffered_print (malloc : ℕ → ℕ → UInt8) (prebuffer : ℕ) (fmt : Bool) (item : Item D)
    (hfits : item.All Number.Fits) (hsize : Printable (render fmt 0 item).length) :
    ∃ text : CString, printBuffered malloc prebuffer fmt item = some text.val ∧
      printValue fmt 0 item = some text.val :=
  ⟨rendered fmt item, printBuffered_eq_render malloc fmt prebuffer item hfits hsize,
    printValue_eq_render fmt 0 item hfits hsize⟩

theorem printBuffered_print_oneMember : ∃ text : CString,
    printBuffered (fun _ _ => 255) 1 false oneMember = some text.val ∧
      printValue false 0 oneMember = some text.val :=
  printBuffered_print _ 1 false oneMember oneMember_fits (oneMember_printable false)

end

end SbusRemote.CJson
