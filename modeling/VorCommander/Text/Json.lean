import VorCommander.Text.Strings

/-!
JSON values and their compact serialisation.

The serialiser writes what `serde_json::to_string` writes: no blanks, numbers
in decimal, and in strings the two-character escapes where there is one and
`\u00xx` for the other control characters. A number that is not an integer is
kept as the text it is written with.
-/

namespace VorCommander.Text

/-- A JSON value. The members of an object are in the order in which they are
written. -/
inductive Value
  | null
  | bool (b : Bool)
  | posInt (n : ℕ)
  | negInt (magnitude : ℕ)
  | float (text : String)
  | string (s : String)
  | array (items : List Value)
  | object (members : List (String × Value))

namespace Value

/-- `Value::as_u64`. -/
def asU64 : Value → Option ℕ
  | .posInt n => some n
  | _ => none

/-- `Value::as_bool`. -/
def asBool : Value → Option Bool
  | .bool b => some b
  | _ => none

/-- `Value::as_str`. -/
def asStr : Value → Option String
  | .string s => some s
  | _ => none

theorem asStr_eq_some {value : Value} {s : String} (h : value.asStr = some s) :
    value = .string s := by
  cases value with
  | string text => exact congrArg Value.string (Option.some.inj h)
  | _ => cases h

/-- `Value::as_array`. -/
def asArray : Value → Option (List Value)
  | .array items => some items
  | _ => none

end Value

/-- The serialisation of one character inside a JSON string. -/
def escapeChar (c : Char) : List Char :=
  if c = '"' then ['\\', '"']
  else if c = '\\' then ['\\', '\\']
  else if c = '\u0008' then ['\\', 'b']
  else if c = '\u000c' then ['\\', 'f']
  else if c = '\n' then ['\\', 'n']
  else if c = '\r' then ['\\', 'r']
  else if c = '\t' then ['\\', 't']
  else if c.toNat < 32 then
    ['\\', 'u', '0', '0', hexDigit (c.toNat / 16), hexDigit (c.toNat % 16)]
  else [c]

/-- A JSON string literal. -/
def encodeString (s : String) : List Char :=
  '"' :: s.toList.flatMap escapeChar ++ ['"']

/-- A number in decimal. -/
def encodeNat (n : ℕ) : List Char := Nat.toDigits 10 n

/-- The pieces of a sequence, separated by commas. -/
def commaSeparated : List (List Char) → List Char
  | [] => []
  | [piece] => piece
  | piece :: rest => piece ++ ',' :: commaSeparated rest

/-- An object from the serialisations of its members. -/
def encodeObject (members : List (String × List Char)) : List Char :=
  '{' :: commaSeparated (members.map fun m => encodeString m.1 ++ ':' :: m.2) ++ ['}']

/-- An array from the serialisations of its items. -/
def encodeArray (items : List (List Char)) : List Char :=
  '[' :: commaSeparated items ++ [']']

/-- A sequence of bytes, which serde writes as an array of numbers. -/
def encodeBytes (bytes : List UInt8) : List Char :=
  encodeArray (bytes.map fun b => encodeNat b.toNat)

namespace Value

mutual

/-- The serialisation of a value. -/
def encode : Value → List Char
  | .null => "null".toList
  | .bool b => (if b then "true" else "false").toList
  | .posInt n => encodeNat n
  | .negInt magnitude => '-' :: encodeNat magnitude
  | .float text => text.toList
  | .string s => encodeString s
  | .array items => encodeArray (encodeItems items)
  | .object members => encodeObject (encodeMembers members)

/-- The serialisations of the items of an array. -/
def encodeItems : List Value → List (List Char)
  | [] => []
  | item :: rest => item.encode :: encodeItems rest

/-- The serialisations of the members of an object. -/
def encodeMembers : List (String × Value) → List (String × List Char)
  | [] => []
  | (name, value) :: rest => (name, value.encode) :: encodeMembers rest

end

/-- `serde_json::to_vec`. -/
def toBytes (v : Value) : List UInt8 := utf8 (String.ofList v.encode)

theorem toBytes_object_ne_nil (members : List (String × Value)) :
    (object members).toBytes ≠ [] := by
  rw [toBytes, Ne, utf8_eq_nil_iff]
  simp [encode, encodeObject]

end Value

end VorCommander.Text
