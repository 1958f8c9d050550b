/-
**Records and variants as JSON.**

A record is stored as an object with its fields by name, and is read from that or from an array
with its fields in their order.  Fields that the record does not have are ignored, a field that it
has may not occur twice, and fields that are missing from the end of an array are absent.  A
variant is stored either as a record with its name in the field `type`, or as an object with its
name as the only field.

Main definitions:

* `BoundQuery.Json.fields?` — the fields of a record, each present or absent;
* `BoundQuery.Json.tagged?` — a record with the name of a variant, and its other fields;
* `BoundQuery.Json.wrapped?`, `BoundQuery.Json.unit?` — a variant as the only field of an object;
* `BoundQuery.Json.oneField`, `BoundQuery.Json.twoFields`, `BoundQuery.Json.each` — the parts of a
  record or an array, each of them read;
* `BoundQuery.Json.depth` — how deep arrays and objects are nested.
-/

import BoundQuery.Json.Basic

set_option relaxedAutoImplicit false
set_option autoImplicit false

namespace BoundQuery.Json

/-! ### Nesting -/

mutual

/-- How deep arrays and objects are nested. -/
def depth : Json → Nat
  | array js => itemsDepth js + 1
  | object fs => fieldsDepth fs + 1
  | _ => 0

/-- The greatest depth in a list of values. -/
def itemsDepth : List Json → Nat
  | [] => 0
  | j :: js => max j.depth (itemsDepth js)

/-- The greatest depth in a list of fields. -/
def fieldsDepth : List (String × Json) → Nat
  | [] => 0
  | (_, j) :: fs => max j.depth (fieldsDepth fs)

end

/-! ### Records -/

/-- How often a name occurs among fields. -/
def occurrences (name : String) (fs : List (String × Json)) : Nat :=
  (fs.filter fun f => f.1 = name).length

/-- The fields of a record with these names; `none` if the value is no such record. -/
def fields? (names : List String) : Json → Option (List (Option Json))
  | object fs =>
      if names.all fun name => occurrences name fs ≤ 1 then
        some (names.map fun name => fs.lookup name)
      else none
  | array js =>
      if js.length ≤ names.length then
        some (js.map some ++ List.replicate (names.length - js.length) none)
      else none
  | _ => none

/-! ### Variants -/

/-- The name of a variant among `names`; where they are numbered, also by its place. -/
def variant? (numbered : Bool) (names : List String) : Json → Option String
  | string s => if names.contains s then some s else none
  | int n => if numbered && 0 ≤ n then names[n.toNat]? else none
  | _ => none

/-- A record that says in its field `type`, or as the first item of its array, which of some
variants it is: the name of the variant, and the record without it. -/
def tagged? (numbered : Bool) (names : List String) : Json → Option (String × Json)
  | object fs =>
      match fs.filter fun f => f.1 = "type" with
      | [(_, tag)] =>
          (variant? numbered names tag).map (·, object (fs.filter fun f => f.1 ≠ "type"))
      | _ => none
  | array (tag :: js) => (variant? numbered names tag).map (·, array js)
  | _ => none

/-- A variant as the only field of an object: its name and its content. -/
def wrapped? : Json → Option (String × Json)
  | object [(name, j)] => some (name, j)
  | _ => none

/-- The name of a variant without content: a text, or the only field of an object. -/
def unit? : Json → Option String
  | string s => some s
  | object [(name, null)] => some name
  | _ => none

/-! ### Scalars -/

/-- A text. -/
def string? : Json → Option String
  | string s => some s
  | _ => none

/-- A truth value. -/
def bool? : Json → Option Bool
  | bool b => some b
  | _ => none

/-- A whole number of 64 bits with a sign. -/
def int64? : Json → Option Int64
  | int n => if -0x8000000000000000 ≤ n ∧ n < 0x8000000000000000 then some (Int64.ofInt n) else none
  | _ => none

/-- A whole number of 64 bits without a sign. -/
def uint64? : Json → Option UInt64
  | int n => if 0 ≤ n ∧ n < 0x10000000000000000 then some (UInt64.ofNat n.toNat) else none
  | _ => none

/-- A floating-point number; a whole number is rounded to one. -/
def double? : Json → Option Double
  | int n => some (Double.ofDecimal (n < 0) n.natAbs 0)
  | float x => some x
  | _ => none

/-- The items of an array. -/
def items? : Json → Option (List Json)
  | array js => some js
  | _ => none

/-- A value that may be absent, which a missing field says as well as `null`. -/
def optional? {α : Type} (read : Json → Option α) : Option Json → Option (Option α)
  | none => some none
  | some null => some none
  | some j => (read j).map some

/-! ### Parts of records -/

/-- One field of a record, read. -/
def oneField {α : Type} (name : String) (read : Json → Option α) (j : Json) : Option α :=
  match j.fields? [name] with
  | some [some v] => read v
  | _ => none

/-- Two fields of a record, read. -/
def twoFields {α β : Type} (first second : String) (readFirst : Json → Option α)
    (readSecond : Json → Option β) (j : Json) : Option (α × β) :=
  match j.fields? [first, second] with
  | some [some v, some w] => do return (← readFirst v, ← readSecond w)
  | _ => none

/-- The items of an array, each of them read. -/
def each {α : Type} (read : Json → Option α) (j : Json) : Option (List α) := do
  (← j.items?).mapM read

end BoundQuery.Json
