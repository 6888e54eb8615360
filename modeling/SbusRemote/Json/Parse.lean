import SbusRemote.Json.Number
import SbusRemote.Json.Strings

/-!
# Items and the parser

`cJSON` items as trees, and `parse_value`, `parse_array`, `parse_object` over any text.

The functions call each other for as deep as the text nests, so they take a bound on the
recursion; twice the length of the text is always enough.  It is assumed that memory is granted
whenever it is asked for.
-/

namespace SbusRemote.CJson

/-! ## Items -/

mutual

/-- A `cJSON` node with all below it: its type, and the field that type uses. -/
inductive Item (D : Type) where
  | null
  | false
  | true
  | number (n : Number D)
  | string (valuestring : CString)
  | array (child : Chain D)
  | object (child : Members D)

/-- The nodes of an array, linked by `next`. -/
inductive Chain (D : Type) where
  | nil
  | cons (item : Item D) (next : Chain D)

/-- The nodes of an object, each with its `string`. -/
inductive Members (D : Type) where
  | nil
  | cons (string : CString) (item : Item D) (next : Members D)

end

mutual

/-- The same item with other numbers. -/
def Item.map {D E : Type} (f : Number D → Number E) : Item D → Item E
  | .null => .null
  | .false => .false
  | .true => .true
  | .number n => .number (f n)
  | .string s => .string s
  | .array child => .array (child.map f)
  | .object child => .object (child.map f)

def Chain.map {D E : Type} (f : Number D → Number E) : Chain D → Chain E
  | .nil => .nil
  | .cons item next => .cons (item.map f) (next.map f)

def Members.map {D E : Type} (f : Number D → Number E) : Members D → Members E
  | .nil => .nil
  | .cons string item next => .cons string (item.map f) (next.map f)

end

mutual

/-- All numbers of an item satisfy `P`. -/
def Item.All {D : Type} (P : Number D → Prop) : Item D → Prop
  | .number n => P n
  | .array child => child.All P
  | .object child => child.All P
  | .null | .false | .true | .string _ => True

def Chain.All {D : Type} (P : Number D → Prop) : Chain D → Prop
  | .nil => True
  | .cons item next => item.All P ∧ next.All P

def Members.All {D : Type} (P : Number D → Prop) : Members D → Prop
  | .nil => True
  | .cons _ item next => item.All P ∧ next.All P

end

/-! ## The parser -/

def nullText : Text := [110, 117, 108, 108]

def falseText : Text := [102, 97, 108, 115, 101]

def trueText : Text := [116, 114, 117, 101]

section

variable (D : Type) [CDouble D]

/-- A name, a colon and a value: `parse_string`, `skip`, `:` and `parse_value`. -/
def parseMember (parse : Text → Parsed (Item D)) (value : Text) : Parsed (CString × Item D) :=
  (parseString value).bind fun string value =>
    if peek (skip value) ≠ 58 then .failed (skip value)
    else (parse (skip (skip value).tail)).bind fun item value => .done (string, item) value

mutual

/-- `parse_value`. -/
def parseValue : ℕ → Text → Parsed (Item D)
  | 0, _ => .outOfFuel
  | fuel + 1, value =>
      if value.take 4 = nullText then .done .null (value.drop 4)
      else if value.take 5 = falseText then .done .false (value.drop 5)
      else if value.take 4 = trueText then .done .true (value.drop 4)
      else if peek value = 34 then (parseString value).bind fun s value => .done (.string s) value
      else if peek value = 45 || Decimal.isDigit (peek value) then
        (parseNumber D value).bind fun n value => .done (.number n) value
      else if peek value = 91 then parseArray fuel value
      else if peek value = 123 then parseObject fuel value
      else .failed value

/-- `parse_array`. -/
def parseArray : ℕ → Text → Parsed (Item D)
  | 0, _ => .outOfFuel
  | fuel + 1, value =>
      if peek value ≠ 91 then .failed value
      else
        let value := skip value.tail
        if peek value = 93 then .done (.array .nil) value.tail
        else
          (parseValue fuel (skip value)).bind fun item value =>
            (parseElements fuel (skip value)).bind fun next value =>
              .done (.array (.cons item next)) value

/-- The loop of `parse_array` over what follows an element, to the closing bracket. -/
def parseElements : ℕ → Text → Parsed (Chain D)
  | 0, _ => .outOfFuel
  | fuel + 1, value =>
      if peek value = 44 then
        (parseValue fuel (skip value.tail)).bind fun item value =>
          (parseElements fuel (skip value)).bind fun next value => .done (.cons item next) value
      else if peek value = 93 then .done .nil value.tail
      else .failed value

/-- `parse_object`. -/
def parseObject : ℕ → Text → Parsed (Item D)
  | 0, _ => .outOfFuel
  | fuel + 1, value =>
      if peek value ≠ 123 then .failed value
      else
        let value := skip value.tail
        if peek value = 125 then .done (.object .nil) value.tail
        else
          (parseMember D (fun value => parseValue fuel value) (skip value)).bind fun member value =>
            (parseMembers fuel (skip value)).bind fun next value =>
              .done (.object (.cons member.1 member.2 next)) value

/-- The loop of `parse_object` over what follows a member, to the closing brace. -/
def parseMembers : ℕ → Text → Parsed (Members D)
  | 0, _ => .outOfFuel
  | fuel + 1, value =>
      if peek value = 44 then
        (parseMember D (fun value => parseValue fuel value) (skip value.tail)).bind
          fun member value =>
            (parseMembers fuel (skip value)).bind fun next value =>
              .done (.cons member.1 member.2 next) value
      else if peek value = 125 then .done .nil value.tail
      else .failed value

end

/-- `cJSON_ParseWithOpts`; the rest of the text is what `return_parse_end` points to. -/
def parseWithOpts (value : CString) (requireNullTerminated : Bool) : Parsed (Item D) :=
  (parseValue D (2 * value.val.length + 1) (skip value.val)).bind fun c rest =>
    if requireNullTerminated then
      if skip rest = [] then .done c (skip rest) else .failed (skip rest)
    else .done c rest

/-- `cJSON_Parse`. -/
def parse (value : CString) : Parsed (Item D) := parseWithOpts D value false

end

end SbusRemote.CJson
