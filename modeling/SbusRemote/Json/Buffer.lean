import SbusRemote.Json.Print
import Mathlib.Data.Nat.Bitwise

/-!
# Printing into a growing buffer

`cJSON_PrintBuffered` prints into one buffer that `ensure` replaces by a larger one when it is
full.  What a new block holds before it is written is the allocator's, `malloc`; the blocks of one
call all have different sizes, so a content for each size is as general as one for each block.

Between two steps only the bytes in front of `offset` count, `PrintBuffer.Written`; `print_value`
leaves its text and a terminator there and `offset` somewhere in it, `PrintBuffer.Printed`, and
`update` moves on to the terminator.

* `Emits`, `Emits.bind` — a step that appends a text, and two such steps.
* `printBuffered_eq_render` — the text is the one printed without a buffer, for any first size,
  and nothing outside a block is written.
-/

namespace SbusRemote.CJson

/-! ## The buffer -/

/-- `printbuffer`; its `length` is the length of `buffer`. -/
structure PrintBuffer where
  buffer : Text
  offset : ℕ

/-- `w` copied into a block from `start` on. -/
def overwrite (block : Text) (start : ℕ) (w : Text) : Option Text :=
  if start + w.length ≤ block.length then
    some (block.take start ++ (w ++ block.drop (start + w.length)))
  else none

/-- A new block of `n` bytes. -/
def alloc (malloc : ℕ → ℕ → UInt8) (n : ℕ) : Text := (List.range n).map (malloc n)

/-- `pow2gt`: a power of two that is no less than `x`. -/
def pow2gt (x : ℕ) : ℕ :=
  let x := x - 1
  let x := x ||| x >>> 1
  let x := x ||| x >>> 2
  let x := x ||| x >>> 4
  let x := x ||| x >>> 8
  let x := x ||| x >>> 16
  x + 1

/-- `ensure`; there is no result if the new size overflows an `int`. -/
def ensure (malloc : ℕ → ℕ → UInt8) (p : PrintBuffer) (needed : ℕ) : Option PrintBuffer :=
  let needed := needed + p.offset
  if needed ≤ p.buffer.length then some p
  else if pow2gt needed ≤ intMax then do
    let newbuffer ← overwrite (alloc malloc (pow2gt needed)) 0 p.buffer
    return { p with buffer := newbuffer }
  else none

/-- `update`, assigned to `offset`: the terminator from `offset` on. -/
def update (p : PrintBuffer) : Option PrintBuffer :=
  let str := p.buffer.drop p.offset
  if 0 ∈ str then some { p with offset := p.offset + (str.takeWhile (· ≠ 0)).length } else none

/-- `ptr=ensure(p,needed)`, the bytes `w` written from there on, and `p->offset+=len`. -/
def emit (malloc : ℕ → ℕ → UInt8) (needed : ℕ) (w : Text) (len : ℕ) (p : PrintBuffer) :
    Option PrintBuffer := do
  let p ← ensure malloc p needed
  let buffer ← overwrite p.buffer p.offset w
  return ⟨buffer, p.offset + len⟩

/-- `out=ensure(p,needed)` and a string copied there. -/
def putString (malloc : ℕ → ℕ → UInt8) (needed : ℕ) (text : Text) (p : PrintBuffer) :
    Option (ℕ × PrintBuffer) := do
  let p ← emit malloc needed (text ++ [0]) 0 p
  return (p.offset, p)

/-! ## The printer -/

/-- Whether `child` or `next` is 0. -/
def Chain.isNull {D : Type} : Chain D → Bool
  | .nil => true
  | .cons _ _ => false

def Members.isNull {D : Type} : Members D → Bool
  | .nil => true
  | .cons _ _ _ => false

section

variable {D : Type} [CDouble D]

mutual

/-- `print_value` with a buffer, with `print_array` and `print_object`.  The pointer it returns is
an index into the last block; an object that is formatted returns another one, since its loop
over the tabs uses the same `i`. -/
def printValueBuffered (malloc : ℕ → ℕ → UInt8) (fmt : Bool) (depth : ℕ) :
    Item D → PrintBuffer → Option (ℕ × PrintBuffer)
  | .null, p => putString malloc 5 nullText p
  | .false, p => putString malloc 6 falseText p
  | .true, p => putString malloc 5 trueText p
  | .number n, p => putString malloc (printNumber n).1 (printNumber n).2.text p
  | .string s, p => putString malloc (printStringPtr s).1 (printStringPtr s).2 p
  | .array child, p =>
      if child.isNull then putString malloc 3 [91, 93] p
      else do
        let i := p.offset
        let p ← emit malloc 1 [91] 1 p
        let p ← printEntriesBuffered malloc fmt (depth + 1) child p
        let p ← emit malloc 2 [93, 0] 0 p
        return (i, p)
  | .object child, p =>
      if child.isNull then
        putString malloc (if fmt then depth + 4 else 3)
          (123 :: (formatted fmt (10 :: tabs (depth - 1)) ++ [125])) p
      else do
        let i := p.offset
        let len := if fmt then 2 else 1
        let p ← emit malloc (len + 1) (123 :: (formatted fmt [10] ++ [0])) len p
        let p ← printPairsBuffered malloc fmt (depth + 1) child p
        let p ← emit malloc (if fmt then depth + 1 + 1 else 2)
          (formatted fmt (tabs (depth + 1 - 1)) ++ [125, 0]) 0 p
        return (if fmt then depth + 1 - 1 else i, p)

/-- The loop of `print_array`. -/
def printEntriesBuffered (malloc : ℕ → ℕ → UInt8) (fmt : Bool) (depth : ℕ) :
    Chain D → PrintBuffer → Option PrintBuffer
  | .nil, p => some p
  | .cons item next, p => do
      let (_, p) ← printValueBuffered malloc fmt depth item p
      let p ← update p
      let len := if fmt then 2 else 1
      let p ← if next.isNull then some p
        else emit malloc (len + 1) (44 :: (formatted fmt [32] ++ [0])) len p
      printEntriesBuffered malloc fmt depth next p

/-- The loop of `print_object`. -/
def printPairsBuffered (malloc : ℕ → ℕ → UInt8) (fmt : Bool) (depth : ℕ) :
    Members D → PrintBuffer → Option PrintBuffer
  | .nil, p => some p
  | .cons string item next, p => do
      let p ← if fmt then emit malloc depth (tabs depth) depth p else some p
      let (_, p) ← putString malloc (printStringPtr string).1 (printStringPtr string).2 p
      let p ← update p
      let len := if fmt then 2 else 1
      let p ← emit malloc len (58 :: formatted fmt [9]) len p
      let (_, p) ← printValueBuffered malloc fmt depth item p
      let p ← update p
      let comma : Text := if next.isNull then [] else [44]
      let len := (if fmt then 1 else 0) + comma.length
      let p ← emit malloc (len + 1) (comma ++ (formatted fmt [10] ++ [0])) len p
      printPairsBuffered malloc fmt depth next p

end

/-- `cJSON_PrintBuffered`: the string at the pointer it returns. -/
def printBuffered (malloc : ℕ → ℕ → UInt8) (prebuffer : ℕ) (fmt : Bool) (item : Item D) :
    Option Text := do
  let (out, p) ← printValueBuffered malloc fmt 0 item ⟨alloc malloc prebuffer, 0⟩
  let str := p.buffer.drop out
  if 0 ∈ str then some (str.takeWhile (· ≠ 0)) else none

end

/-! ## One step -/

/-- The bytes in front of `offset` are `t`. -/
def PrintBuffer.Written (p : PrintBuffer) (t : Text) : Prop :=
  ∃ r, p.buffer = t ++ r ∧ p.offset = t.length

/-- A string `w` stands behind `t`, and `offset` is in it or at its end. -/
def PrintBuffer.Printed (p : PrintBuffer) (t w : Text) : Prop :=
  ∃ len r, p.buffer = t ++ (w ++ 0 :: r) ∧ p.offset = t.length + len ∧ len ≤ w.length

lemma overwrite_append {t r w : Text} (h : w.length ≤ r.length) :
    overwrite (t ++ r) t.length w = some (t ++ (w ++ r.drop w.length)) := by
  rw [overwrite, if_pos (by rw [List.length_append]; omega), List.take_left,
    List.drop_length_add_append]

lemma length_alloc (malloc : ℕ → ℕ → UInt8) (n : ℕ) : (alloc malloc n).length = n := by
  rw [alloc, List.length_map, List.length_range]

lemma le_pow2gt (x : ℕ) : x ≤ pow2gt x := by
  have hor (y k : ℕ) : y ≤ y ||| y >>> k := Nat.left_le_or
  have h := (hor (x - 1) 1).trans ((hor _ 2).trans ((hor _ 4).trans ((hor _ 8).trans (hor _ 16))))
  simp only [pow2gt]
  omega

lemma pow2gt_le {x k : ℕ} (h : x ≤ 2 ^ k) : pow2gt x ≤ 2 ^ k := by
  have hor (y n : ℕ) (hy : y < 2 ^ k) : y ||| y >>> n < 2 ^ k :=
    Nat.or_lt_two_pow hy ((Nat.shiftRight_le y n).trans_lt hy)
  have hpos : 0 < 2 ^ k := Nat.two_pow_pos k
  exact hor _ 16 (hor _ 8 (hor _ 4 (hor _ 2 (hor _ 1 (by omega)))))

section

variable {p : PrintBuffer} {t w : Text} {needed : ℕ}

/-- `ensure` leaves what is written in place and makes room for what is needed. -/
lemma ensure_written (malloc : ℕ → ℕ → UInt8) (h : p.Written t)
    (hmax : t.length + needed ≤ 2 ^ 30) :
    ∃ r, ensure malloc p needed = some ⟨t ++ r, t.length⟩ ∧ needed ≤ r.length := by
  obtain ⟨r, hbuffer, hoffset⟩ := h
  obtain ⟨buffer, offset⟩ := p
  subst hbuffer hoffset
  simp only [ensure]
  split_ifs with hroom hint
  · rw [List.length_append] at hroom
    exact ⟨r, rfl, by omega⟩
  · have hle := le_pow2gt (needed + t.length)
    have hlen := length_alloc malloc (pow2gt (needed + t.length))
    generalize alloc malloc (pow2gt (needed + t.length)) = block at hlen ⊢
    rw [List.length_append] at hroom
    have hcopy := overwrite_append (t := []) (w := t ++ r) (r := block)
      (by rw [List.length_append]; omega)
    rw [List.nil_append, List.length_nil, List.nil_append, List.append_assoc] at hcopy
    refine ⟨r ++ block.drop (t ++ r).length, ?_, ?_⟩
    · simp only [hcopy, Option.bind_eq_bind, Option.bind_some, Option.pure_def]
    · simp only [List.length_append, List.length_drop]
      omega
  · have hle : pow2gt (needed + t.length) ≤ 2 ^ 30 := pow2gt_le (by omega)
    exact absurd (hle.trans (by decide)) hint

/-- What a step of the printer leaves in the buffer. -/
lemma emit_written (malloc : ℕ → ℕ → UInt8) (len : ℕ) (h : p.Written t) (hw : w.length ≤ needed)
    (hmax : t.length + needed ≤ 2 ^ 30) :
    ∃ r, emit malloc needed w len p = some ⟨t ++ (w ++ r), t.length + len⟩ := by
  obtain ⟨r, hensure, hroom⟩ := ensure_written malloc h hmax
  refine ⟨r.drop w.length, ?_⟩
  simp only [emit, hensure, Option.bind_eq_bind, Option.bind_some,
    overwrite_append (hw.trans hroom), Option.pure_def]

/-- `update` goes to the end of a string without a terminator in it. -/
lemma update_printed (h : p.Printed t w) (hw : ∀ b ∈ w, b ≠ 0) :
    ∃ p', update p = some p' ∧ p'.Written (t ++ w) := by
  obtain ⟨len, r, hbuffer, hoffset, hlen⟩ := h
  have hdrop : p.buffer.drop p.offset = w.drop len ++ 0 :: r := by
    rw [hbuffer, hoffset, List.drop_length_add_append, List.drop_append_of_le_length hlen]
  have hstr : (w.drop len ++ 0 :: r).takeWhile (· ≠ 0) = w.drop len := by
    rw [List.takeWhile_append_of_pos fun b hb => by simpa using hw b (List.mem_of_mem_drop hb),
      List.takeWhile_cons_of_neg (by simp), List.append_nil]
  rw [update, hdrop, if_pos (by simp), hstr]
  refine ⟨_, rfl, 0 :: r, ?_, ?_⟩
  · rw [hbuffer, List.append_assoc]
  · simp only [hoffset, List.length_append, List.length_drop]
    omega

end

/-! ## Steps that append a text -/

/-- `f` appends `w` to what is written. -/
def Emits (f : PrintBuffer → Option PrintBuffer) (w : Text) : Prop :=
  ∀ p t, p.Written t → Printable (t.length + w.length) → ∃ p', f p = some p' ∧ p'.Written (t ++ w)

/-- `f` leaves the string `w` behind what is written.  The index it returns is where the string
starts, or else `depth`. -/
def Prints (depth : ℕ) (f : PrintBuffer → Option (ℕ × PrintBuffer)) (w : Text) : Prop :=
  ∀ p t, p.Written t → Printable (t.length + w.length) →
    ∃ out p', f p = some (out, p') ∧ p'.Printed t w ∧ (out = t.length ∨ out = depth)

lemma Printable.mono {m n : ℕ} (h : Printable n) (hle : m ≤ n) : Printable m := by
  unfold Printable at *
  omega

/-- No `int` of `ensure` overflows. -/
lemma Printable.room {n : ℕ} (h : Printable n) : n + 64 ≤ 2 ^ 30 := by
  unfold Printable intMax at h
  omega

lemma emits_some : Emits some [] := fun p t h _ => ⟨p, rfl, by rwa [List.append_nil]⟩

/-- Two steps append two texts. -/
lemma Emits.bind {f g : PrintBuffer → Option PrintBuffer} {w v : Text} (hf : Emits f w)
    (hg : Emits g v) : Emits (fun p => (f p).bind g) (w ++ v) := by
  intro p t hp hsize
  rw [List.length_append] at hsize
  obtain ⟨p₁, hp₁, hw₁⟩ := hf p t hp (hsize.mono (by omega))
  obtain ⟨p₂, hp₂, hw₂⟩ := hg p₁ (t ++ w) hw₁
    (hsize.mono (by rw [List.length_append, Nat.add_assoc]))
  refine ⟨p₂, ?_, by rwa [← List.append_assoc]⟩
  simp only [hp₁, Option.bind_some, hp₂]

lemma Emits.congr {f g : PrintBuffer → Option PrintBuffer} {w : Text} (hf : Emits f w)
    (h : ∀ p, g p = f p) : Emits g w := fun p t hp hsize => by
  rw [h]
  exact hf p t hp hsize

/-- Printing a string and moving on to its end appends it. -/
lemma Prints.update {depth : ℕ} {f : PrintBuffer → Option (ℕ × PrintBuffer)} {w : Text}
    (hf : Prints depth f w) (hw : ∀ b ∈ w, b ≠ 0) :
    Emits (fun p => (f p).bind fun x => CJson.update x.2) w := by
  intro p t hp hsize
  obtain ⟨out, p₁, hp₁, hprinted, -⟩ := hf p t hp hsize
  obtain ⟨p₂, hp₂, hw₂⟩ := update_printed hprinted hw
  exact ⟨p₂, by simp only [hp₁, Option.bind_some, hp₂], hw₂⟩

section

variable (malloc : ℕ → ℕ → UInt8)

/-- `offset` moves over the bytes `w`; what else is written, `z`, does not count. -/
lemma emits_emit (needed len : ℕ) (w z : Text) (hlen : len = w.length)
    (hroom : w.length + z.length ≤ needed) (hneeded : needed ≤ w.length + 64) :
    Emits (emit malloc needed (w ++ z) len) w := by
  intro p t hp hsize
  have hmax := hsize.room
  obtain ⟨r, hemit⟩ := emit_written (w := w ++ z) malloc len hp
    (by rwa [List.length_append]) (show t.length + needed ≤ 2 ^ 30 by omega)
  exact ⟨_, hemit, z ++ r, by simp, by rw [hlen, List.length_append]⟩

/-- A string is copied to the place `offset` stays at. -/
lemma prints_putString (depth : ℕ) {needed : ℕ} (text : Text) (hroom : text.length + 1 ≤ needed)
    (hneeded : needed ≤ text.length + 64) : Prints depth (putString malloc needed text) text := by
  intro p t hp hsize
  have hmax := hsize.room
  obtain ⟨r, hemit⟩ := emit_written (w := text ++ [0]) malloc 0 hp
    (by rwa [List.length_append]) (show t.length + needed ≤ 2 ^ 30 by omega)
  refine ⟨t.length, ⟨t ++ (text ++ [0] ++ r), t.length⟩, ?_, ⟨0, r, by simp, rfl, Nat.zero_le _⟩,
    .inl rfl⟩
  simp only [putString, hemit, Option.bind_eq_bind, Option.bind_some, Option.pure_def, Nat.add_zero]

/-- A string is escaped into the buffer. -/
lemma prints_printStringPtr (depth : ℕ) (s : CString) :
    Prints depth (putString malloc (printStringPtr s).1 (printStringPtr s).2) (quoted s) := by
  rw [printStringPtr_text, printStringPtr_size]
  exact prints_putString malloc depth (quoted s) le_rfl (by omega)

/-- Steps that append `u`, and a last one that leaves `v` there: both are one string. -/
lemma Emits.prints {f : PrintBuffer → Option PrintBuffer} {u : Text} (hf : Emits f u)
    (needed depth out : ℕ) (v : Text) (hroom : v.length + 1 ≤ needed)
    (hneeded : needed ≤ v.length + 64) {p : PrintBuffer} {t : Text} (hp : p.Written t)
    (hsize : Printable (t.length + (u ++ v).length)) (hout : out = t.length ∨ out = depth) :
    ∃ out' p', ((f p).bind fun p => (emit malloc needed (v ++ [0]) 0 p).bind fun p => some (out, p))
        = some (out', p') ∧ p'.Printed t (u ++ v) ∧ (out' = t.length ∨ out' = depth) := by
  have hmax := hsize.room
  rw [List.length_append] at hsize hmax
  obtain ⟨p₁, hp₁, hw₁⟩ := hf p t hp (hsize.mono (by omega))
  obtain ⟨r, hemit⟩ := emit_written (w := v ++ [0]) malloc 0 hw₁
    (by rwa [List.length_append]) (show (t ++ u).length + needed ≤ 2 ^ 30 by
      rw [List.length_append]
      omega)
  refine ⟨out, _, by rw [hp₁, Option.bind_some, hemit, Option.bind_some], ?_, hout⟩
  exact ⟨u.length, r, by simp, by simp, by simp⟩

end

/-! ## The printer appends the text of an item -/

section

variable {D : Type} [CDouble D] (malloc : ℕ → ℕ → UInt8) (fmt : Bool)

/-- The elements of an array and its closing bracket. -/
def renderEntries (fmt : Bool) (depth : ℕ) : Chain D → Text
  | .nil => [93]
  | .cons item next => render fmt depth item ++ renderChain fmt depth next

/-- The members of an object and its closing brace. -/
def renderPairs (fmt : Bool) (depth : ℕ) : Members D → Text
  | .nil => formatted fmt (tabs (depth - 1)) ++ [125]
  | .cons string item next =>
      formatted fmt (tabs depth) ++ (quoted string ++ 58 :: (formatted fmt [9] ++
        (render fmt depth item ++ renderMembers fmt depth next)))

lemma renderChain_eq (depth : ℕ) (next : Chain D) : renderChain fmt depth next
    = (if next.isNull then [] else 44 :: formatted fmt [32]) ++ renderEntries fmt depth next := by
  cases next <;> rfl

lemma formatted_cons (c : UInt8) (v : Text) :
    formatted fmt (c :: v) = formatted fmt [c] ++ formatted fmt v := by
  cases fmt <;> rfl

lemma renderMembers_eq (depth : ℕ) (next : Members D) : renderMembers fmt depth next
    = (if next.isNull then [] else [44]) ++ (formatted fmt [10] ++ renderPairs fmt depth next) := by
  cases next with
  | nil =>
      rw [renderMembers, formatted_cons, List.append_assoc]
      rfl
  | cons string item next =>
      rw [renderMembers, formatted_cons, List.append_assoc]
      rfl

mutual

theorem printValueBuffered_prints : ∀ (depth : ℕ) (item : Item D), item.All Number.Fits →
    Prints depth (printValueBuffered malloc fmt depth item) (render fmt depth item)
  | depth, .null, _ => prints_putString malloc depth nullText (by decide) (by decide)
  | depth, .false, _ => prints_putString malloc depth falseText (by decide) (by decide)
  | depth, .true, _ => prints_putString malloc depth trueText (by decide) (by decide)
  | depth, .number n, h => by
      have hsize := printNumber_size n
      exact prints_putString malloc depth (printNumber n).2.text h (by omega)
  | depth, .string s, _ => prints_printStringPtr malloc depth s
  | depth, .array child, h => by
      obtain ⟨body, hbody, hchild⟩ := printEntriesBuffered_emits (depth + 1) child h
      cases child with
      | nil => exact prints_putString malloc depth [91, 93] (by decide) (by decide)
      | cons item next =>
          have hopen := emits_emit malloc 1 1 [91] [] rfl (by decide) (by decide)
          have htext : render fmt depth (.array (.cons item next)) = [91] ++ body ++ [93] := by
            rw [List.append_assoc, hbody]
            rfl
          intro p t hp hsize
          obtain ⟨r, -, hoffset⟩ := id hp
          rw [htext] at hsize ⊢
          have key := (hopen.bind hchild).prints malloc 2 depth p.offset [93] (by decide)
            (by decide) hp hsize (.inl hoffset)
          simpa [printValueBuffered, Chain.isNull, Option.bind_assoc] using key
  | depth, .object child, h => by
      obtain ⟨body, hbody, hchild⟩ := printPairsBuffered_emits (depth + 1) child h
      cases child with
      | nil =>
          refine prints_putString malloc depth _ ?_ ?_ <;>
            simp only [List.length_cons, List.length_append, length_formatted, length_tabs,
              List.length_nil] <;> split_ifs <;> omega
      | cons string item next =>
          have hopen := emits_emit malloc ((if fmt then 2 else 1) + 1) (if fmt then 2 else 1)
            (123 :: formatted fmt [10]) [0]
            (by cases fmt <;> rfl) (by cases fmt <;> decide) (by cases fmt <;> decide)
          have htext : render fmt depth (.object (.cons string item next))
              = 123 :: formatted fmt [10] ++ body ++ (formatted fmt (tabs depth) ++ [125]) := by
            rw [List.append_assoc, show depth = depth + 1 - 1 from rfl, hbody, render,
              formatted_cons]
            simp [renderPairs]
          intro p t hp hsize
          obtain ⟨r, -, hoffset⟩ := id hp
          rw [htext] at hsize ⊢
          have key := (hopen.bind hchild).prints malloc (if fmt then depth + 1 + 1 else 2) depth
            (if fmt then depth else p.offset) (formatted fmt (tabs depth) ++ [125]) ?_ ?_ hp hsize
            ?_
          · simpa [printValueBuffered, Members.isNull, Option.bind_assoc] using key
          · simp only [List.length_append, length_formatted, length_tabs, List.length_singleton]
            split_ifs <;> omega
          · simp only [List.length_append, length_formatted, length_tabs, List.length_singleton]
            split_ifs <;> omega
          · split_ifs
            · exact .inr rfl
            · exact .inl hoffset

/-- The loop of `print_array` appends the elements. -/
theorem printEntriesBuffered_emits : ∀ (depth : ℕ) (child : Chain D), child.All Number.Fits →
    ∃ body, body ++ [93] = renderEntries fmt depth child ∧
      Emits (printEntriesBuffered malloc fmt depth child) body
  | _, .nil, _ => ⟨[], rfl, emits_some⟩
  | depth, .cons item next, h => by
      obtain ⟨body, hbody, hnext⟩ := printEntriesBuffered_emits depth next h.2
      have hitem := (printValueBuffered_prints depth item h.1).update
        (render_ne_zero fmt depth item)
      have hcomma : Emits (fun p => if next.isNull then some p
          else emit malloc ((if fmt then 2 else 1) + 1) (44 :: (formatted fmt [32] ++ [0]))
            (if fmt then 2 else 1) p) (if next.isNull then [] else 44 :: formatted fmt [32]) := by
        cases next.isNull with
        | true => exact emits_some
        | false =>
            exact emits_emit malloc _ _ (44 :: formatted fmt [32]) [0]
              (by cases fmt <;> rfl) (by cases fmt <;> decide) (by cases fmt <;> decide)
      have hrun := hitem.bind (hcomma.bind hnext)
      refine ⟨_, ?_, hrun.congr fun p => ?_⟩
      · rw [List.append_assoc, List.append_assoc, hbody, renderEntries, renderChain_eq]
      · simp only [printEntriesBuffered, Option.bind_eq_bind, Option.bind_assoc]
        cases next.isNull <;> rfl

/-- The loop of `print_object` appends the members. -/
theorem printPairsBuffered_emits : ∀ (depth : ℕ) (child : Members D), child.All Number.Fits →
    ∃ body, body ++ (formatted fmt (tabs (depth - 1)) ++ [125]) = renderPairs fmt depth child ∧
      Emits (printPairsBuffered malloc fmt depth child) body
  | _, .nil, _ => ⟨[], rfl, emits_some⟩
  | depth, .cons string item next, h => by
      obtain ⟨body, hbody, hnext⟩ := printPairsBuffered_emits depth next h.2
      have hitem := (printValueBuffered_prints depth item h.1).update
        (render_ne_zero fmt depth item)
      have hname := (prints_printStringPtr malloc depth string).update (quoted_ne_zero string)
      have htabs : Emits (fun p => if fmt then emit malloc depth (tabs depth) depth p else some p)
          (formatted fmt (tabs depth)) := by
        cases fmt with
        | false => exact emits_some
        | true =>
            have key := emits_emit malloc depth depth (tabs depth) [] (length_tabs depth).symm
              (by simp [length_tabs]) (by simp [length_tabs])
            rwa [List.append_nil] at key
      have hcolon := emits_emit malloc (if fmt then 2 else 1) (if fmt then 2 else 1)
        (58 :: formatted fmt [9]) []
        (by cases fmt <;> rfl) (by cases fmt <;> decide) (by cases fmt <;> decide)
      rw [List.append_nil] at hcolon
      have hline : (formatted fmt [10]).length = if fmt then 1 else 0 := length_formatted fmt [10]
      have hend (comma : Text) := emits_emit malloc ((if fmt then 1 else 0) + comma.length + 1)
        ((if fmt then 1 else 0) + comma.length) (comma ++ formatted fmt [10]) [0]
        (by rw [List.length_append, hline, Nat.add_comm])
        (by rw [List.length_append, hline, List.length_singleton]; omega)
        (by rw [List.length_append, hline]; omega)
      have hrun := htabs.bind (hname.bind (hcolon.bind (hitem.bind
        ((hend (if next.isNull then [] else [44])).bind hnext))))
      refine ⟨_, ?_, hrun.congr fun p => ?_⟩
      · rw [renderPairs, renderMembers_eq, ← hbody]
        simp
      · simp only [printPairsBuffered, Option.bind_eq_bind, Option.bind_assoc, List.append_assoc]
        cases fmt <;> rfl

end

/-- **The buffered path writes the text of the item**, and nothing outside a block. -/
theorem printBuffered_eq_render (prebuffer : ℕ) (item : Item D) (hfits : item.All Number.Fits)
    (hsize : Printable (render fmt 0 item).length) :
    printBuffered malloc prebuffer fmt item = some (render fmt 0 item) := by
  obtain ⟨out, p, hrun, ⟨len, r, hbuffer, -, -⟩, hout⟩ :=
    printValueBuffered_prints malloc fmt 0 item hfits ⟨alloc malloc prebuffer, 0⟩ []
      ⟨alloc malloc prebuffer, rfl, rfl⟩ (by rwa [List.length_nil, Nat.zero_add])
  obtain rfl : out = 0 := hout.elim id id
  rw [List.nil_append] at hbuffer
  simp only [printBuffered, hrun, Option.bind_eq_bind, Option.bind_some, List.drop_zero, hbuffer]
  have htext : (render fmt 0 item ++ 0 :: r).takeWhile (· ≠ 0) = render fmt 0 item := by
    rw [List.takeWhile_append_of_pos fun b hb => by simpa using render_ne_zero fmt 0 item b hb,
      List.takeWhile_cons_of_neg (by simp), List.append_nil]
  rw [if_pos (by simp), htext]

end

end SbusRemote.CJson
