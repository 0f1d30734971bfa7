import VorCommander.Fs.Newlines

/-!
An edited file read back.

The encoding of an edited text is that of the file before the edit. The next reader
finds it out again from the new bytes: a text may have become one that begins with a
mark, that looks like no text, or whose bytes are UTF-8. Everywhere else the text that
was edited is the text that is read.
-/

namespace VorCommander

open Crypto Steps Text

/-! ### Marks -/

/-- The beginnings by which `decode_search_text` tells the encodings with a mark. -/
def encodingMarks : List (List UInt8) := [utf8Mark, utf16Mark .little, utf16Mark .big]

def Unmarked (bytes : List UInt8) : Prop := ∀ mark ∈ encodingMarks, ¬ mark <+: bytes

theorem unmarked_iff {bytes : List UInt8} :
    Unmarked bytes ↔ ¬ utf8Mark <+: bytes ∧ ∀ order, ¬ utf16Mark order <+: bytes := by
  simp only [Unmarked, encodingMarks, List.forall_mem_cons, List.not_mem_nil, false_imp_iff,
    implies_true, and_true]
  refine and_congr_right fun _ => ?_
  constructor
  · rintro ⟨hlittle, hbig⟩ (_ | _)
    · exact hlittle
    · exact hbig
  · intro h
    exact ⟨h .little, h .big⟩

theorem isPrefixOf?_append {α : Type} [BEq α] [LawfulBEq α] (front back : List α) :
    front.isPrefixOf? (front ++ back) = some back :=
  List.isPrefixOf?_eq_some_iff_append_eq.mpr rfl

theorem isPrefixOf?_eq_none {α : Type} [BEq α] [LawfulBEq α] {front list : List α}
    (h : ¬ front <+: list) : front.isPrefixOf? list = none := by
  cases hback : front.isPrefixOf? list with
  | none => rfl
  | some back => exact absurd ⟨back, List.isPrefixOf?_eq_some_iff_append_eq.mp hback⟩ h

section Decoding

variable {codec : Windows1252} {bytes payload : List UInt8} {text : String} {order : ByteOrder}

theorem decodeSearchText_utf8Mark : decodeSearchText codec (utf8Mark ++ payload) =
    (fromUtf8 payload).bind fun text =>
      if looksBinary payload then none else some { text, encoding := .utf8Bom } := by
  rw [decodeSearchText, isPrefixOf?_append]

theorem decodeSearchText_utf16Mark :
    decodeSearchText codec (utf16Mark order ++ payload) = decodeUtf16 payload order := by
  have hutf8 : ¬ utf8Mark <+: utf16Mark order ++ payload := by
    cases order with
    | little => simp [utf8Mark, utf16Mark]
    | big => simp [utf8Mark, utf16Mark]
  rw [decodeSearchText, isPrefixOf?_eq_none hutf8]
  cases order with
  | little => simp only [isPrefixOf?_append]
  | big =>
      have hlittle : ¬ utf16Mark .little <+: utf16Mark .big ++ payload := by simp [utf16Mark]
      simp only [isPrefixOf?_append, isPrefixOf?_eq_none hlittle]

theorem decodeSearchText_unmarked (h : Unmarked bytes) :
    decodeSearchText codec bytes = decodeUnmarked codec bytes := by
  obtain ⟨hutf8, hutf16⟩ := unmarked_iff.mp h
  rw [decodeSearchText, isPrefixOf?_eq_none hutf8]
  simp only [isPrefixOf?_eq_none (hutf16 _)]

/-- A file that begins with a mark is taken for one that has a mark. -/
theorem unmarked_of_decodeSearchText {encoding : TextEncoding} (hbom : encoding ≠ .utf8Bom)
    (hutf16 : ∀ order, encoding ≠ .utf16 order)
    (h : decodeSearchText codec bytes = some ⟨text, encoding⟩) : Unmarked bytes := by
  refine unmarked_iff.mpr ⟨?_, ?_⟩
  · rintro ⟨payload, rfl⟩
    rw [decodeSearchText_utf8Mark, Option.bind_eq_some_iff] at h
    obtain ⟨text, _, h⟩ := h
    split_ifs at h
    exact hbom (DecodedText.mk.inj (Option.some.inj h)).2.symm
  · rintro order ⟨payload, rfl⟩
    simp only [decodeSearchText_utf16Mark, decodeUtf16, Option.bind_eq_bind,
      Option.bind_eq_some_iff] at h
    obtain ⟨_, _, _, _, h⟩ := h
    split_ifs at h
    exact hutf16 order (DecodedText.mk.inj (Option.some.inj h)).2.symm

end Decoding

/-! ### Which text has a mark -/

/-- Only the character of the mark is encoded with it. -/
theorem utf8Mark_prefix_utf8 (text : String) :
    utf8Mark <+: utf8 text ↔ text.toList.head? = some '\ufeff' := by
  rw [utf8_eq_flatMap]
  constructor
  · rintro ⟨payload, hpayload⟩
    cases hchars : text.toList with
    | nil => simp [hchars, utf8Mark] at hpayload
    | cons c rest =>
        rw [hchars, List.flatMap_cons] at hpayload
        rw [List.head?_cons, eq_of_byteOrderMark hpayload.symm]
  · intro hhead
    obtain ⟨rest, hchars⟩ := List.head?_eq_some_iff.mp hhead
    rw [hchars, List.flatMap_cons]
    exact List.prefix_append _ _

theorem not_utf16Mark_prefix_utf8 (order : ByteOrder) (text : String) :
    ¬ utf16Mark order <+: utf8 text := by
  intro hprefix
  have hmem : (0xff : UInt8) ∈ utf8 text := by
    refine hprefix.subset ?_
    cases order with
    | little => simp [utf16Mark]
    | big => simp [utf16Mark]
  rw [utf8_eq_flatMap, List.mem_flatMap] at hmem
  obtain ⟨c, _, hmem⟩ := hmem
  have hsmall := toNat_lt_of_mem_utf8EncodeChar c _ hmem
  exact absurd hsmall (by decide)

theorem unmarked_utf8 (text : String) :
    Unmarked (utf8 text) ↔ text.toList.head? ≠ some '\ufeff' := by
  rw [unmarked_iff, utf8Mark_prefix_utf8]
  exact and_iff_left fun order => not_utf16Mark_prefix_utf8 order text

/-! ### What has been encoded is decoded again -/

/-- `WINDOWS_1252`, of bytes without a mark: each stands for a character, and a text
without errors has been encoded character by character. -/
structure Windows1252.CodePage (codec : Windows1252) (table : UInt8 → Char) : Prop where
  decode : ∀ bytes, Unmarked bytes → (codec.decode bytes).toList = bytes.map table
  encode : ∀ text, (codec.encode text).2 = false →
    (codec.encode text).1.map table = text.toList

theorem Windows1252.CodePage.decode_encode {codec : Windows1252} {table : UInt8 → Char}
    (h : codec.CodePage table) {text : String} (herrors : (codec.encode text).2 = false)
    (hunmarked : Unmarked (codec.encode text).1) : codec.decode (codec.encode text).1 = text := by
  apply String.toList_injective
  rw [h.decode _ hunmarked, h.encode _ herrors]

/-- A text whose bytes are taken for a text of the same encoding. -/
def KeepsEncoding (codec : Windows1252) (text : String) : TextEncoding → Prop
  | .utf8 => text.toList.head? ≠ some '\ufeff' ∧ looksBinary (utf8 text) = false
  | .utf8Bom => looksBinary (utf8 text) = false
  | .utf16 _ => looksBinaryText text = false
  | .windows1252 => Unmarked (codec.encode text).1 ∧
      looksBinary (codec.encode text).1 = false ∧ fromUtf8 (codec.encode text).1 = none

section RoundTrip

variable {codec : Windows1252} {table : UInt8 → Char} {text : String} {content : List UInt8}

theorem decodeUnmarked_utf8 (text : String) : decodeUnmarked codec (utf8 text) =
    if looksBinary (utf8 text) then none else some ⟨text, .utf8⟩ := by
  rw [decodeUnmarked, fromUtf8_utf8]

theorem decodeUtf16_encoded (order : ByteOrder) (text : String) :
    decodeUtf16 ((text.toList.flatMap units).flatMap order.bytes) order =
      if looksBinaryText text then none else some ⟨text, .utf16 order⟩ := by
  simp only [decodeUtf16, ByteOrder.chunks_flatMap_bytes, decodeUnits_flatMap_units,
    Option.bind_eq_bind, Option.bind_some, String.ofList_toList]

theorem ite_none_eq_some {α : Type} {b : Bool} {a : α} :
    (if b then none else some a) = some a ↔ b = false := by
  cases b <;> simp

/-- What is read back of a text that has been encoded. -/
theorem decodeEditText_encoded_iff (hcodec : codec.CodePage table) {encoding : TextEncoding}
    (h : encodeEditText codec text encoding = .ok content) :
    decodeEditText codec content = .ok ⟨text, encoding⟩ ↔ KeepsEncoding codec text encoding := by
  rw [decodeEditText, orFail_eq_ok]
  cases encoding with
  | utf8 =>
      obtain rfl := Except.ok.inj h
      rw [KeepsEncoding, ← unmarked_utf8]
      constructor
      · intro hdecoded
        have hunmarked := unmarked_of_decodeSearchText (by simp) (by simp) hdecoded
        rw [decodeSearchText_unmarked hunmarked, decodeUnmarked_utf8, ite_none_eq_some] at hdecoded
        exact ⟨hunmarked, hdecoded⟩
      · rintro ⟨hunmarked, htext⟩
        rw [decodeSearchText_unmarked hunmarked, decodeUnmarked_utf8, ite_none_eq_some]
        exact htext
  | utf8Bom =>
      obtain rfl := Except.ok.inj h
      rw [decodeSearchText_utf8Mark, fromUtf8_utf8, Option.bind_some, ite_none_eq_some]
      rfl
  | utf16 order =>
      obtain rfl := Except.ok.inj h
      rw [decodeSearchText_utf16Mark, decodeUtf16_encoded, ite_none_eq_some]
      rfl
  | windows1252 =>
      simp only [encodeEditText] at h
      split_ifs at h with herrors
      obtain rfl := Except.ok.inj h
      rw [Bool.not_eq_true] at herrors
      constructor
      · intro hdecoded
        have hunmarked := unmarked_of_decodeSearchText (by simp) (by simp) hdecoded
        rw [decodeSearchText_unmarked hunmarked, decodeUnmarked] at hdecoded
        split_ifs at hdecoded with hbinary
        refine ⟨hunmarked, by simpa using hbinary, ?_⟩
        -- bytes that are UTF-8 are taken for UTF-8
        cases hutf8 : fromUtf8 (codec.encode text).1 with
        | none => rfl
        | some other => simp [hutf8] at hdecoded
      · rintro ⟨hunmarked, hbinary, hutf8⟩
        rw [decodeSearchText_unmarked hunmarked, decodeUnmarked, hbinary, hutf8,
          hcodec.decode_encode herrors hunmarked]
        rfl

end RoundTrip

/-! ### What has been prepared is read again -/

/-- What an edit has prepared is read as the edited text, in the encoding of the file,
if and only if the edited text keeps its encoding. -/
theorem decodeEditText_prepareEdit_iff {P : Primitives} {codec : Windows1252}
    {table : UInt8 → Char} (hcodec : codec.CodePage table) {host : ReadHost}
    {allowedRoots : List String} {authorization : Authorization} {edits : List TextEdit}
    {prepared : PreparedEdit}
    (h : prepareEdit P codec host allowedRoots authorization edits = .ok prepared) :
    ∃ target original decoded edited,
      resolveReadTarget host allowedRoots authorization.request.envelope.target = .ok target ∧
      host.read target = .ok original ∧ decodeEditText codec original = .ok decoded ∧
      Edited (detectedNewline decoded.text) decoded.text edits edited ∧
      (decodeEditText codec prepared.content = .ok ⟨edited, decoded.encoding⟩ ↔
        KeepsEncoding codec edited decoded.encoding) := by
  have hsteps := h
  simp only [prepareEdit, bind_eq_ok, exists_unit] at hsteps
  obtain ⟨hauthorized, _, target, htarget, original, hread, decoded, hdecoded, _⟩ := hsteps
  obtain ⟨_, edited, hedited, hcontent, _⟩ :=
    (prepareEdit_eq_ok hauthorized htarget hread hdecoded).mp h
  exact ⟨target, original, decoded, edited, htarget, hread, hdecoded, hedited,
    decodeEditText_encoded_iff hcodec hcontent⟩

namespace EncodingSample

theorem codec_codePage : codec.CodePage latin where
  decode bytes _ := codec_singleByte.decode bytes
  encode text herrors := by
    have hsmall : ∀ c ∈ text.toList, ¬ 256 ≤ c.toNat := by
      simpa [codec, List.any_eq_false] using herrors
    refine (codec_singleByte.encode text fun c hc => ⟨UInt8.ofNat c.toNat, ?_⟩).2
    have hbound := hsmall c hc
    rw [latin, UInt8.toNat_ofNat', Nat.mod_eq_of_lt (by omega), Char.ofNat_toNat]

end EncodingSample

namespace EditSample

/-- The line becomes another, before which there is a mark. -/
def markingEdits : List TextEdit := [⟨"a\n", "\ufeffb\n", 1⟩]

/-- What some edits of the line prepare. -/
def prepared (edited : String) : PreparedEdit where
  content := utf8 edited
  originalSha256 := sha256Hex reference [0x61, 0x0d, 0x0a]
  diffSummary := (unifiedDiffSummary "a\r\n" edited).1
  diffTruncated := (unifiedDiffSummary "a\r\n" edited).2

theorem decode_original : decodeEditText EncodingSample.codec [0x61, 0x0d, 0x0a] =
    .ok ⟨"a\r\n", .utf8⟩ := by decide

theorem prepareEdit_prepared {edits : List TextEdit} {edited : String}
    (hedits : AcceptedEdits edits) (hedited : Edited "\r\n" "a\r\n" edits edited)
    (hlength : (utf8 edited).length ≤ maxEditFileBytes) :
    prepareEdit reference EncodingSample.codec host ["C:\\work"] authorization edits =
      .ok (prepared edited) := by
  have hresolved : resolveReadTarget host ["C:\\work"] authorization.request.envelope.target =
      .ok "C:\\work\\a.txt" := by decide
  have hnewline : detectedNewline "a\r\n" = "\r\n" := by decide
  refine (prepareEdit_eq_ok (by decide) hresolved rfl decode_original).mpr ?_
  rw [hnewline]
  refine ⟨hedits, edited, hedited, rfl, hlength, ?_⟩
  simp only [prepared, and_self]

theorem accepted_edits : AcceptedEdits edits := ⟨by decide, by decide, by decide⟩

theorem accepted_markingEdits : AcceptedEdits markingEdits := ⟨by decide, by decide, by decide⟩

theorem edited_edits : Edited "\r\n" "a\r\n" edits "b\r\n" :=
  (applyEdits_eq_ok (by simp) (by decide) 0).mp (by decide)

theorem edited_markingEdits : Edited "\r\n" "a\r\n" markingEdits "\ufeffb\r\n" :=
  (applyEdits_eq_ok (by simp) (by decide) 0).mp (by decide)

end EditSample

open EditSample EncodingSample in
/-- The line that has been edited keeps its encoding. -/
theorem decodeEditText_prepareEdit_iff_line : ∃ target original decoded edited,
    resolveReadTarget EditSample.host ["C:\\work"] authorization.request.envelope.target =
      .ok target ∧
    EditSample.host.read target = .ok original ∧ decodeEditText codec original = .ok decoded ∧
    Edited (detectedNewline decoded.text) decoded.text EditSample.edits edited ∧
    (decodeEditText codec (prepared "b\r\n").content = .ok ⟨edited, decoded.encoding⟩ ↔
      KeepsEncoding codec edited decoded.encoding) :=
  decodeEditText_prepareEdit_iff codec_codePage
    (prepareEdit_prepared accepted_edits edited_edits (by decide))

open EditSample EncodingSample in
/-- A line before which an edit puts a mark is read without it, in another encoding. -/
theorem prepareEdit_mark :
    prepareEdit reference codec EditSample.host ["C:\\work"] authorization markingEdits =
      .ok (prepared "\ufeffb\r\n") ∧
    decodeEditText codec [0x61, 0x0d, 0x0a] = .ok ⟨"a\r\n", .utf8⟩ ∧
    Edited "\r\n" "a\r\n" markingEdits "\ufeffb\r\n" ∧
    decodeEditText codec (prepared "\ufeffb\r\n").content = .ok ⟨"b\r\n", .utf8Bom⟩ ∧
    decodeEditText codec (prepared "\ufeffb\r\n").content ≠ .ok ⟨"\ufeffb\r\n", .utf8⟩ := by
  have hread : decodeEditText codec (prepared "\ufeffb\r\n").content =
      .ok ⟨"b\r\n", .utf8Bom⟩ := by decide
  refine ⟨prepareEdit_prepared accepted_markingEdits edited_markingEdits (by decide),
    decode_original, edited_markingEdits, hread, ?_⟩
  rw [hread]
  decide

end VorCommander
