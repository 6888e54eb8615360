import SbusRemote.Json.Escape
import SbusRemote.Json.Grammar

/-!
# Printing

`print_value`, `print_array` and `print_object` as `cJSON_Print` and `cJSON_PrintUnformatted` call
them.  Each level prints what is below it first, adds up the bytes it needs, allocates them and
copies.  `store` is such an allocation with a text copied into it: it has no result if the text
and its terminator do not fit.

* `render` — the text, without a word about memory.
* `printValue_eq_render` — printing never writes outside its allocations, and writes this text.
* `itemText_render`, `parse_render` — if its numbers are finite, the text is read back as the same
  item, each number replaced by what it shows.
-/

namespace SbusRemote.CJson

/-! ## The code -/

/-- A text, and the terminator, in an allocation of `size` bytes; `size` is an `int`. -/
def store (size : ℕ) (text : Text) : Option Text :=
  if size ≤ intMax ∧ text.length + 1 ≤ size then some text else none

/-- `cJSON_strdup`. -/
def strdup (str : Text) : Option Text := store (str.length + 1) str

/-- Tabs. -/
def tabs (n : ℕ) : Text := List.replicate n 9

/-- The bytes `text` only with `fmt`. -/
def formatted (fmt : Bool) (text : Text) : Text := if fmt then text else []

/-- The loop of `print_array` that composes the output. -/
def joinEntries (fmt : Bool) : List Text → Text
  | [] => []
  | [entry] => entry
  | entry :: entries => entry ++ 44 :: (formatted fmt [32] ++ joinEntries fmt entries)

/-- The loop of `print_object` that composes the output. -/
def joinPairs (fmt : Bool) (depth : ℕ) : List (Text × Text) → Text
  | [] => []
  | (name, entry) :: pairs =>
      formatted fmt (tabs depth) ++ (name ++ 58 :: (formatted fmt [9] ++
        (entry ++ ((if pairs.isEmpty then [] else [44]) ++
          (formatted fmt [10] ++ joinPairs fmt depth pairs)))))

section

variable {D : Type} [CDouble D]

mutual

/-- `print_value` without a buffer, with `print_array` and `print_object`. -/
def printValue (fmt : Bool) (depth : ℕ) : Item D → Option Text
  | .null => strdup nullText
  | .false => strdup falseText
  | .true => strdup trueText
  | .number n => store (printNumber n).1 (printNumber n).2.text
  | .string s => store (printStringPtr s).1 (printStringPtr s).2
  | .array .nil => store 3 [91, 93]
  | .array (.cons item next) => do
      let ret ← printValue fmt (depth + 1) item
      let rets ← printEntries fmt (depth + 1) next
      let entries := ret :: rets
      let len := 5 + (entries.map fun ret => ret.length + 2 + (if fmt then 1 else 0)).sum
      store len (91 :: (joinEntries fmt entries ++ [93]))
  | .object .nil =>
      store (if fmt then depth + 4 else 3)
        (123 :: (formatted fmt (10 :: tabs (depth - 1)) ++ [125]))
  | .object (.cons string item next) => do
      let str ← store (printStringPtr string).1 (printStringPtr string).2
      let ret ← printValue fmt (depth + 1) item
      let rets ← printPairs fmt (depth + 1) next
      let pairs := (str, ret) :: rets
      let len := 7 + (if fmt then depth + 1 else 0) + (pairs.map fun pair =>
        pair.2.length + pair.1.length + 2 + (if fmt then 2 + (depth + 1) else 0)).sum
      store len (123 :: (formatted fmt [10] ++ (joinPairs fmt (depth + 1) pairs ++
        (formatted fmt (tabs (depth + 1 - 1)) ++ [125]))))

/-- The loop of `print_array` that retrieves the results. -/
def printEntries (fmt : Bool) (depth : ℕ) : Chain D → Option (List Text)
  | .nil => some []
  | .cons item next => do
      let ret ← printValue fmt depth item
      let rets ← printEntries fmt depth next
      return ret :: rets

/-- The loop of `print_object` that collects the results. -/
def printPairs (fmt : Bool) (depth : ℕ) : Members D → Option (List (Text × Text))
  | .nil => some []
  | .cons string item next => do
      let str ← store (printStringPtr string).1 (printStringPtr string).2
      let ret ← printValue fmt depth item
      let rets ← printPairs fmt depth next
      return (str, ret) :: rets

end

/-- `cJSON_Print` and `cJSON_PrintUnformatted`. -/
def print (item : Item D) : Option Text := printValue true 0 item

def printUnformatted (item : Item D) : Option Text := printValue false 0 item

/-! ## The text -/

mutual

/-- **The text of an item at a depth.** -/
def render (fmt : Bool) (depth : ℕ) : Item D → Text
  | .null => nullText
  | .false => falseText
  | .true => trueText
  | .number n => (printNumber n).2.text
  | .string s => quoted s
  | .array .nil => [91, 93]
  | .array (.cons item next) =>
      91 :: (render fmt (depth + 1) item ++ renderChain fmt (depth + 1) next)
  | .object .nil => 123 :: (formatted fmt (10 :: tabs (depth - 1)) ++ [125])
  | .object (.cons string item next) =>
      123 :: (formatted fmt (10 :: tabs (depth + 1)) ++
        (quoted string ++ 58 :: (formatted fmt [9] ++
          (render fmt (depth + 1) item ++ renderMembers fmt (depth + 1) next))))

/-- What follows an element. -/
def renderChain (fmt : Bool) (depth : ℕ) : Chain D → Text
  | .nil => [93]
  | .cons item next =>
      44 :: (formatted fmt [32] ++ (render fmt depth item ++ renderChain fmt depth next))

/-- What follows a member. -/
def renderMembers (fmt : Bool) (depth : ℕ) : Members D → Text
  | .nil => formatted fmt (10 :: tabs (depth - 1)) ++ [125]
  | .cons string item next =>
      44 :: (formatted fmt (10 :: tabs depth) ++ (quoted string ++ 58 :: (formatted fmt [9] ++
        (render fmt depth item ++ renderMembers fmt depth next))))

end

/-! ## Every allocation is large enough -/

/-- The text of a number fits into what `print_number` allocates for it. -/
def Number.Fits (n : Number D) : Prop := (printNumber n).2.text.length + 1 ≤ (printNumber n).1

/-- A text of `len` bytes can be printed without an `int` on the way that overflows. -/
def Printable (len : ℕ) : Prop := 2 * len + 128 ≤ intMax

lemma store_eq_some {size : ℕ} {text : Text} (hmax : size ≤ intMax) (h : text.length + 1 ≤ size) :
    store size text = some text := if_pos ⟨hmax, h⟩

lemma strdup_eq_some {str : Text} (h : Printable str.length) : strdup str = some str :=
  store_eq_some (by unfold Printable at h; omega) le_rfl

lemma store_printStringPtr {s : CString} (h : Printable (quoted s).length) :
    store (printStringPtr s).1 (printStringPtr s).2 = some (quoted s) := by
  rw [printStringPtr_size, printStringPtr_text]
  exact strdup_eq_some h

lemma printNumber_size (n : Number D) : (printNumber n).1 ≤ 64 := by
  rw [printNumber]
  split_ifs <;> simp

lemma length_formatted (fmt : Bool) (text : Text) :
    (formatted fmt text).length = if fmt then text.length else 0 := by
  cases fmt <;> rfl

lemma length_tabs (n : ℕ) : (tabs n).length = n := List.length_replicate

lemma joinEntries_cons_cons (fmt : Bool) (entry entry' : Text) (entries : List Text) :
    joinEntries fmt (entry :: entry' :: entries)
      = entry ++ 44 :: (formatted fmt [32] ++ joinEntries fmt (entry' :: entries)) := rfl

/-- What `print_array` counts for its entries is enough, and not more than twice what it takes. -/
lemma length_joinEntries (fmt : Bool) : ∀ entries : List Text,
    (joinEntries fmt entries).length
        ≤ (entries.map fun ret => ret.length + 2 + (if fmt then 1 else 0)).sum ∧
      (entries.map fun ret => ret.length + 2 + (if fmt then 1 else 0)).sum
        ≤ 2 * (joinEntries fmt entries).length + 3
  | [] => ⟨Nat.le_refl 0, Nat.zero_le _⟩
  | [entry] => by
      simp only [joinEntries, List.map_cons, List.map_nil, List.sum_cons, List.sum_nil]
      split_ifs <;> omega
  | entry :: entry' :: entries => by
      have ih := length_joinEntries fmt (entry' :: entries)
      rw [joinEntries_cons_cons, List.map_cons, List.sum_cons, List.length_append, List.length_cons,
        List.length_append, length_formatted, List.length_singleton]
      omega

/-- What `print_object` counts for its members is enough, and not more than twice what it takes. -/
lemma length_joinPairs (fmt : Bool) (depth : ℕ) : ∀ pairs : List (Text × Text),
    (joinPairs fmt depth pairs).length ≤ (pairs.map fun pair =>
        pair.2.length + pair.1.length + 2 + (if fmt then 2 + depth else 0)).sum ∧
      (pairs.map fun pair =>
        pair.2.length + pair.1.length + 2 + (if fmt then 2 + depth else 0)).sum
          ≤ 2 * (joinPairs fmt depth pairs).length
  | [] => ⟨Nat.le_refl 0, Nat.le_refl 0⟩
  | (name, entry) :: pairs => by
      have ih := length_joinPairs fmt depth pairs
      have hcomma : (if pairs.isEmpty then [] else ([44] : Text)).length ≤ 1 := by
        split_ifs <;> simp
      rw [joinPairs]
      generalize (if pairs.isEmpty then [] else ([44] : Text)) = comma at hcomma ⊢
      simp only [List.map_cons, List.sum_cons, List.length_append, List.length_cons,
        length_formatted, length_tabs, List.length_nil]
      split_ifs at ih ⊢ <;> omega

mutual

/-- **Printing writes the text of the item, and nothing outside its allocations.** -/
theorem printValue_eq_render (fmt : Bool) : ∀ (depth : ℕ) (item : Item D), item.All Number.Fits →
    Printable (render fmt depth item).length →
      printValue fmt depth item = some (render fmt depth item)
  | _, .null, _, _ => rfl
  | _, .false, _, _ => rfl
  | _, .true, _, _ => rfl
  | _, .number n, hfits, h => by
      have hsize := printNumber_size n
      rw [render, Printable] at h
      rw [printValue, render, store_eq_some (by omega)]
      exact hfits
  | _, .string s, _, h => by rw [printValue, render, store_printStringPtr h]
  | _, .array .nil, _, _ => rfl
  | depth, .array (.cons item next), hfits, h => by
      rw [render, List.length_cons, List.length_append, Printable] at h
      obtain ⟨rets, hrets, hjoin⟩ := printEntries_eq_render fmt (depth + 1) next hfits.2
        (by unfold Printable; omega)
      have hlen := length_joinEntries fmt (render fmt (depth + 1) item :: rets)
      have htext := congrArg List.length (hjoin (render fmt (depth + 1) item))
      rw [List.length_append, List.length_append, List.length_singleton] at htext
      rw [printValue, hrets,
        printValue_eq_render fmt (depth + 1) item hfits.1 (by unfold Printable; omega)]
      simp only [Option.bind_eq_bind, Option.bind_some]
      rw [store_eq_some (by omega), hjoin, render]
      rw [List.length_cons, List.length_append, List.length_singleton]
      omega
  | depth, .object .nil, _, h => by
      simp only [render, List.length_cons, List.length_append, length_formatted, length_tabs,
        List.length_nil, Printable] at h
      rw [printValue, render, store_eq_some]
      · split_ifs at h ⊢ <;> omega
      · simp only [List.length_cons, List.length_append, length_formatted, length_tabs,
          List.length_nil]
        split_ifs <;> omega
  | depth, .object (.cons string item next), hfits, h => by
      simp only [render, List.length_cons, List.length_append, length_formatted, length_tabs,
        List.length_nil, Printable] at h
      obtain ⟨rets, hrets, hjoin⟩ := printPairs_eq_render fmt (depth + 1) next hfits.2
        (by unfold Printable; omega)
      have hlen := length_joinPairs fmt (depth + 1)
        ((quoted string, render fmt (depth + 1) item) :: rets)
      have htext := congrArg List.length (hjoin (quoted string) (render fmt (depth + 1) item))
      simp only [List.length_append, List.length_cons, length_formatted, length_tabs,
        List.length_nil] at htext
      rw [printValue, store_printStringPtr (by unfold Printable; omega),
        printValue_eq_render fmt (depth + 1) item hfits.1 (by unfold Printable; omega), hrets]
      simp only [Option.bind_eq_bind, Option.bind_some]
      rw [store_eq_some, hjoin, render]
      · cases fmt <;> simp [formatted]
      · split_ifs at * <;> omega
      · simp only [List.length_cons, List.length_append, List.length_nil, length_formatted,
          length_tabs]
        split_ifs at hlen ⊢ <;> omega

/-- What is joined behind a first entry. -/
theorem printEntries_eq_render (fmt : Bool) : ∀ (depth : ℕ) (next : Chain D),
    next.All Number.Fits → Printable (renderChain fmt depth next).length →
      ∃ rets, printEntries fmt depth next = some rets ∧
        ∀ entry, joinEntries fmt (entry :: rets) ++ [93] = entry ++ renderChain fmt depth next
  | _, .nil, _, _ => ⟨[], rfl, fun _ => rfl⟩
  | depth, .cons item next, hfits, h => by
      simp only [renderChain, List.length_cons, List.length_append, Printable] at h
      obtain ⟨rets, hrets, hjoin⟩ := printEntries_eq_render fmt depth next hfits.2
        (by unfold Printable; omega)
      refine ⟨render fmt depth item :: rets, ?_, fun entry => ?_⟩
      · rw [printEntries, printValue_eq_render fmt depth item hfits.1 (by unfold Printable; omega),
          hrets]
        rfl
      · rw [joinEntries_cons_cons, List.append_assoc, List.cons_append, List.append_assoc, hjoin,
          renderChain]

/-- What is joined behind a first pair. -/
theorem printPairs_eq_render (fmt : Bool) : ∀ (depth : ℕ) (next : Members D),
    next.All Number.Fits → Printable (renderMembers fmt depth next).length →
      ∃ rets, printPairs fmt depth next = some rets ∧
        ∀ name entry, joinPairs fmt depth ((name, entry) :: rets) ++
            (formatted fmt (tabs (depth - 1)) ++ [125])
          = formatted fmt (tabs depth) ++ (name ++ 58 :: (formatted fmt [9] ++
              (entry ++ renderMembers fmt depth next)))
  | _, .nil, _, _ => by
      refine ⟨[], rfl, fun name entry => ?_⟩
      cases fmt <;> simp [joinPairs, renderMembers, formatted]
  | depth, .cons string item next, hfits, h => by
      simp only [renderMembers, List.length_cons, List.length_append, Printable] at h
      obtain ⟨rets, hrets, hjoin⟩ := printPairs_eq_render fmt depth next hfits.2
        (by unfold Printable; omega)
      refine ⟨(quoted string, render fmt depth item) :: rets, ?_, fun name entry => ?_⟩
      · rw [printPairs, store_printStringPtr (by unfold Printable; omega),
          printValue_eq_render fmt depth item hfits.1 (by unfold Printable; omega), hrets]
        rfl
      · have key := hjoin (quoted string) (render fmt depth item)
        rw [joinPairs, renderMembers]
        cases fmt <;> simp_all [formatted]

end

/-! ## The text is read back -/

lemma white_formatted (fmt : Bool) {w : Text} (hw : White w) : White (formatted fmt w) := by
  cases fmt with
  | true => exact hw
  | false => simp [formatted, White]

lemma white_newline (n : ℕ) : White (10 :: tabs n) := by
  refine List.forall_mem_cons.mpr ⟨by decide, fun c hc => ?_⟩
  rw [List.eq_of_mem_replicate hc]
  decide

lemma white_one {c : UInt8} (h : c ≤ 32) : White [c] := by
  rintro c' hc
  rwa [List.mem_singleton.mp hc]

/-- A member is written as the grammar has it. -/
lemma memberText_render (fmt : Bool) (string : CString) {t : Text} {item : Item D}
    (ht : ItemText White t item) :
    MemberText White (quoted string ++ 58 :: (formatted fmt [9] ++ t)) string item := by
  have key := MemberText.mk (w := []) (literal_escape string) (by simp [White])
    (white_formatted fmt (white_one (c := 9) (by decide))) ht
  rw [CString.ofText_val] at key
  have htext : quoted string ++ 58 :: (formatted fmt [9] ++ t)
      = 34 :: (string.val.flatMap escapeByte ++ 34 :: ([] ++ 58 :: (formatted fmt [9] ++ t))) := by
    simp [quoted]
  rwa [htext]

mutual

/-- **What is printed is the text of the item**, with each number replaced by what it shows; a
number that is not finite has no text in the grammar. -/
theorem itemText_render (fmt : Bool) : ∀ (depth : ℕ) (item : Item D), item.All Number.Finite →
    ItemText White (render fmt depth item) (item.map Number.shown)
  | _, .null, _ => .null
  | _, .false, _ => .false
  | _, .true, _ => .true
  | _, .number _, hfinite => .number (numberText_printNumber hfinite)
  | _, .string s, _ => by
      have key := ItemText.string (W := White) (D := D) (literal_escape s)
      rwa [CString.ofText_val] at key
  | _, .array .nil, _ => .emptyArray (w := []) (by simp [White])
  | depth, .array (.cons item next), hfinite =>
      .array (w := []) (by simp [White]) (itemText_render fmt (depth + 1) item hfinite.1)
        (chainText_render fmt (depth + 1) next hfinite.2)
  | depth, .object .nil, _ => .emptyObject (white_formatted fmt (white_newline _))
  | depth, .object (.cons string item next), hfinite => by
      have key := ItemText.object (white_formatted fmt (white_newline (depth + 1)))
        (memberText_render fmt string (itemText_render fmt (depth + 1) item hfinite.1))
        (membersText_render fmt (depth + 1) next hfinite.2)
      simpa [render, Item.map, Members.map] using key

theorem chainText_render (fmt : Bool) : ∀ (depth : ℕ) (next : Chain D), next.All Number.Finite →
    ChainText White (renderChain fmt depth next) (next.map Number.shown)
  | _, .nil, _ => .nil (w := []) (by simp [White])
  | depth, .cons item next, hfinite =>
      .cons (w := []) (by simp [White]) (white_formatted fmt (white_one (by decide)))
        (itemText_render fmt depth item hfinite.1) (chainText_render fmt depth next hfinite.2)

theorem membersText_render (fmt : Bool) : ∀ (depth : ℕ) (next : Members D),
    next.All Number.Finite →
      MembersText White (renderMembers fmt depth next) (next.map Number.shown)
  | _, .nil, _ => .nil (white_formatted fmt (white_newline _))
  | depth, .cons string item next, hfinite => by
      have key := MembersText.cons (w := []) (by simp [White])
        (white_formatted fmt (white_newline depth))
        (memberText_render fmt string (itemText_render fmt depth item hfinite.1))
        (membersText_render fmt depth next hfinite.2)
      simpa [renderMembers, Members.map] using key

end

/-! ## The text is a C string -/

lemma escapeByte_ne_zero {c : UInt8} (hc : c ≠ 0) : ∀ b ∈ escapeByte c, b ≠ 0 := by
  have hletter : ∀ d < 16, hexLetter d ≠ 0 := by decide
  have hlt := c.toNat_lt
  have hnumber : ∀ b ∈ escapeNumber c, b ≠ 0 := by
    simp only [escapeNumber, List.forall_mem_cons]
    exact ⟨by decide, by decide, by decide, hletter _ (by omega), hletter _ (by omega), by simp⟩
  rw [escapeByte]
  split_ifs
  · exact List.forall_mem_cons.mpr ⟨hc, by simp⟩
  all_goals try exact forall_mem_of_all rfl
  exact List.forall_mem_cons.mpr ⟨by decide, hnumber⟩

lemma quoted_ne_zero (s : CString) : ∀ b ∈ quoted s, b ≠ 0 := by
  refine List.forall_mem_cons.mpr ⟨by decide, ?_⟩
  rw [List.forall_mem_append]
  refine ⟨fun b hb => ?_, forall_mem_of_all rfl⟩
  obtain ⟨c, hc, hb⟩ := List.mem_flatMap.mp hb
  exact escapeByte_ne_zero (by rintro rfl; exact s.property hc) b hb

lemma formatted_ne_zero (fmt : Bool) {t : Text} (ht : ∀ b ∈ t, b ≠ 0) :
    ∀ b ∈ formatted fmt t, b ≠ 0 := by
  cases fmt with
  | true => exact ht
  | false => simp [formatted]

lemma newline_ne_zero (n : ℕ) : ∀ b ∈ 10 :: tabs n, b ≠ 0 := by
  refine List.forall_mem_cons.mpr ⟨by decide, fun b hb => ?_⟩
  rw [List.eq_of_mem_replicate hb]
  decide

mutual

theorem render_ne_zero (fmt : Bool) : ∀ (depth : ℕ) (item : Item D),
    ∀ b ∈ render fmt depth item, b ≠ 0
  | _, .null => by rw [render]; exact forall_mem_of_all rfl
  | _, .false => by rw [render]; exact forall_mem_of_all rfl
  | _, .true => by rw [render]; exact forall_mem_of_all rfl
  | _, .number n => by
      rw [render]
      exact (printNumber n).2.ne (by decide)
  | _, .string s => quoted_ne_zero s
  | _, .array .nil => by rw [render]; exact forall_mem_of_all rfl
  | depth, .array (.cons item next) => by
      rw [render, List.forall_mem_cons, List.forall_mem_append]
      exact ⟨by decide, render_ne_zero fmt (depth + 1) item,
        renderChain_ne_zero fmt (depth + 1) next⟩
  | depth, .object .nil => by
      rw [render, List.forall_mem_cons, List.forall_mem_append]
      exact ⟨by decide, formatted_ne_zero fmt (newline_ne_zero _), forall_mem_of_all rfl⟩
  | depth, .object (.cons string item next) => by
      simp only [render, List.forall_mem_cons, List.forall_mem_append]
      exact ⟨by decide, formatted_ne_zero fmt (newline_ne_zero _), quoted_ne_zero string, by decide,
        formatted_ne_zero fmt (forall_mem_of_all rfl), render_ne_zero fmt (depth + 1) item,
        renderMembers_ne_zero fmt (depth + 1) next⟩

theorem renderChain_ne_zero (fmt : Bool) : ∀ (depth : ℕ) (next : Chain D),
    ∀ b ∈ renderChain fmt depth next, b ≠ 0
  | _, .nil => by rw [renderChain]; exact forall_mem_of_all rfl
  | depth, .cons item next => by
      simp only [renderChain, List.forall_mem_cons, List.forall_mem_append]
      exact ⟨by decide, formatted_ne_zero fmt (forall_mem_of_all rfl),
        render_ne_zero fmt depth item, renderChain_ne_zero fmt depth next⟩

theorem renderMembers_ne_zero (fmt : Bool) : ∀ (depth : ℕ) (next : Members D),
    ∀ b ∈ renderMembers fmt depth next, b ≠ 0
  | _, .nil => by
      rw [renderMembers, List.forall_mem_append]
      exact ⟨formatted_ne_zero fmt (newline_ne_zero _), forall_mem_of_all rfl⟩
  | depth, .cons string item next => by
      simp only [renderMembers, List.forall_mem_cons, List.forall_mem_append]
      exact ⟨by decide, formatted_ne_zero fmt (newline_ne_zero _), quoted_ne_zero string, by decide,
        formatted_ne_zero fmt (forall_mem_of_all rfl), render_ne_zero fmt depth item,
        renderMembers_ne_zero fmt depth next⟩

end

/-- The printed text as the C string it is. -/
def rendered (fmt : Bool) (item : Item D) : CString :=
  ⟨render fmt 0 item, fun h => render_ne_zero fmt 0 item 0 h rfl⟩

/-- **The text of an item is read back**, in either mode, as the item with each number replaced by
what it shows; nothing of the text is left. -/
theorem parse_render (fmt requireNullTerminated : Bool) (item : Item D)
    (hfinite : item.All Number.Finite) (hmax : (render fmt 0 item).length ≤ intMax) :
    parseWithOpts D (rendered fmt item) requireNullTerminated
      = .done (item.map Number.shown) [] := by
  have htext := itemText_render fmt 0 item hfinite
  have hskip := htext.skip (w := []) (by simp [White]) []
  have hread := parseValue_itemText (r := []) htext
    (follows_of_numberEnds (by decide) _) hmax (Nat.le_refl _)
  rw [List.append_nil, List.nil_append] at hskip
  rw [List.append_nil] at hread
  rw [parseWithOpts]
  simp only [rendered, hskip, hread, Parsed.bind_done, skip_nil, if_true]
  cases requireNullTerminated <;> rfl

end

end SbusRemote.CJson
