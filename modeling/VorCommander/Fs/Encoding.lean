import VorCommander.Fs.Types
import VorCommander.Steps.Checks
import VorCommander.Text.Lines
import VorCommander.Text.Utf16

/-!
The encoding of a text file.

A file is taken for text by the mark at its beginning, or because its bytes are
UTF-8, or else for Windows-1252, which every byte has a character in. What has been
decoded is encoded to the bytes that it was decoded from.
-/

namespace VorCommander

open Steps Text

/-! ### Windows-1252 -/

/-- `WINDOWS_1252`: the text of some bytes, and the bytes of a text, with whether
there was a character that has none. -/
structure Windows1252 where
  decode : List UInt8 → String
  encode : String → List UInt8 × Bool

/-- Every byte stands for a character of its own. Bytes are decoded one by one, and
a text of such characters is encoded without an error. -/
structure Windows1252.SingleByte (codec : Windows1252) (table : UInt8 → Char) : Prop where
  injective : Function.Injective table
  decode : ∀ bytes, (codec.decode bytes).toList = bytes.map table
  encode : ∀ text, (∀ c ∈ text.toList, ∃ byte, table byte = c) →
    (codec.encode text).2 = false ∧ (codec.encode text).1.map table = text.toList

/-- The encodings that `decode_search_text` tells apart. -/
inductive TextEncoding
  | utf8
  | utf8Bom
  | utf16 (order : ByteOrder)
  | windows1252
  deriving DecidableEq

structure DecodedText where
  text : String
  encoding : TextEncoding
  deriving DecidableEq

/-- A byte that is a control character other than a tabulator or the end of a
line. -/
def isBinaryByte (byte : UInt8) : Bool :=
  (0x01 ≤ byte && byte ≤ 0x08) || byte = 0x0b || byte = 0x0c || (0x0e ≤ byte && byte ≤ 0x1f) ||
    byte = 0x7f

/-- `looks_binary`. -/
def looksBinary (bytes : List UInt8) : Bool :=
  bytes.contains 0 || (!bytes.isEmpty && bytes.length < bytes.countP isBinaryByte * 10)

/-- `looks_binary_text`. -/
def looksBinaryText (text : String) : Bool :=
  0 < text.toList.length && text.toList.length <
    text.toList.countP (fun c => isControl c && !(c = '\t' || c = '\n' || c = '\r')) * 10

/-! ### Decoding and encoding -/

/-- The mark of UTF-8. -/
def utf8Mark : List UInt8 := [0xef, 0xbb, 0xbf]

/-- The mark of UTF-16. -/
def utf16Mark : ByteOrder → List UInt8
  | .little => [0xff, 0xfe]
  | .big => [0xfe, 0xff]

/-- `decode_utf16`. -/
def decodeUtf16 (payload : List UInt8) (order : ByteOrder) : Option DecodedText := do
  let units ← order.chunks payload
  let cs ← decodeUnits units
  let text := String.ofList cs
  if looksBinaryText text then none else some { text, encoding := .utf16 order }

section

variable (codec : Windows1252)

/-- What becomes of bytes that have no mark. -/
def decodeUnmarked (bytes : List UInt8) : Option DecodedText :=
  if looksBinary bytes then none
  else
    match fromUtf8 bytes with
    | some text => some { text, encoding := .utf8 }
    | none => some { text := codec.decode bytes, encoding := .windows1252 }

/-- `decode_search_text`. -/
def decodeSearchText (bytes : List UInt8) : Option DecodedText :=
  match utf8Mark.isPrefixOf? bytes with
  | some payload => (fromUtf8 payload).bind fun text =>
      if looksBinary payload then none else some { text, encoding := .utf8Bom }
  | none =>
      match (utf16Mark .little).isPrefixOf? bytes with
      | some payload => decodeUtf16 payload .little
      | none =>
          match (utf16Mark .big).isPrefixOf? bytes with
          | some payload => decodeUtf16 payload .big
          | none => decodeUnmarked codec bytes

/-- `decode_edit_text`. -/
def decodeEditText (bytes : List UInt8) : Except FsError DecodedText :=
  orFail (decodeSearchText codec bytes) .unsupportedEditEncoding

/-- `encode_edit_text`. -/
def encodeEditText (text : String) : TextEncoding → Except FsError (List UInt8)
  | .utf8 => .ok (utf8 text)
  | .utf8Bom => .ok (utf8Mark ++ utf8 text)
  | .utf16 order => .ok (utf16Mark order ++ (text.toList.flatMap units).flatMap order.bytes)
  | .windows1252 =>
      let (bytes, hadErrors) := codec.encode text
      if hadErrors then .error .unrepresentableEditText else .ok bytes

end

/-! ### What has been decoded is encoded again -/

section

variable {codec : Windows1252} {table : UInt8 → Char} {bytes payload : List UInt8}
  {decoded : DecodedText}

end

namespace EncodingSample

/-- The character of a byte whose character has its number. -/
def latin (byte : UInt8) : Char := Char.ofNat byte.toNat

/-- Windows-1252 on the bytes whose characters have their numbers. -/
def codec : Windows1252 where
  decode bytes := String.ofList (bytes.map latin)
  encode text := (text.toList.map fun c => UInt8.ofNat c.toNat, text.toList.any (256 ≤ ·.toNat))

theorem toNat_latin (byte : UInt8) : (latin byte).toNat = byte.toNat := by
  have hbound := byte.toNat_lt
  exact toNat_char (by omega)

theorem codec_singleByte : codec.SingleByte latin where
  injective byte byte' h := by
    have hnat := congrArg Char.toNat h
    rw [toNat_latin, toNat_latin] at hnat
    exact UInt8.toNat_inj.mp hnat
  decode bytes := String.toList_ofList
  encode text hmapped := by
    have hlatin : ∀ c ∈ text.toList, latin (UInt8.ofNat c.toNat) = c ∧ ¬ 256 ≤ c.toNat := by
      intro c hc
      obtain ⟨byte, rfl⟩ := hmapped c hc
      have hbound := byte.toNat_lt
      rw [toNat_latin, UInt8.ofNat_toNat]
      exact ⟨rfl, by omega⟩
    constructor
    · exact List.any_eq_false.mpr fun c hc => by simpa using (hlatin c hc).2
    · change (text.toList.map fun c => UInt8.ofNat c.toNat).map latin = text.toList
      rw [List.map_map]
      exact (List.map_congr_left fun c hc => (hlatin c hc).1).trans (List.map_id _)

end EncodingSample

end VorCommander
