import VorCommander.Fs.Edit

/-!
What an edit prepares.

The edits of a list are made if and only if each finds its text as often as it
says in what the edits before it have left. The line ends of a file stay as they
are if they are all alike: what is searched and what is put in its place has the
line ends of the file, and no occurrence begins or ends within a line end.
-/

namespace VorCommander

open Crypto Steps Text

/-! ### Line ends -/

/-- Every line end is a carriage return and a line feed. -/
inductive CrlfEnded : List Char → Prop
  | nil : CrlfEnded []
  | newline {rest : List Char} (hrest : CrlfEnded rest) : CrlfEnded ('\r' :: '\n' :: rest)
  | char {c : Char} {rest : List Char} (hreturn : c ≠ '\r') (hfeed : c ≠ '\n')
      (hrest : CrlfEnded rest) : CrlfEnded (c :: rest)

namespace CrlfEnded

variable {front back rest : List Char} {c : Char}

theorem append (h : CrlfEnded front) (h' : CrlfEnded back) : CrlfEnded (front ++ back) := by
  induction h with
  | nil => exact h'
  | newline _ ih => exact .newline ih
  | char hreturn hfeed _ ih => exact .char hreturn hfeed ih

theorem head_ne (h : CrlfEnded (c :: rest)) : c ≠ '\n' := by
  cases h with
  | newline => decide
  | char _ hfeed _ => exact hfeed

theorem of_newline (h : CrlfEnded ('\r' :: '\n' :: rest)) : CrlfEnded rest := by
  cases h with
  | newline hrest => exact hrest
  | char hreturn => exact absurd rfl hreturn

theorem of_char (hreturn : c ≠ '\r') (h : CrlfEnded (c :: rest)) : CrlfEnded rest := by
  cases h with
  | newline => exact absurd rfl hreturn
  | char _ _ hrest => exact hrest

/-- What is left after a part that ends with no half of a line end. -/
theorem right_of_left (h : CrlfEnded front) (happend : CrlfEnded (front ++ back)) :
    CrlfEnded back := by
  induction h with
  | nil => exact happend
  | newline _ ih => exact ih happend.of_newline
  | char hreturn _ _ ih => exact ih (happend.of_char hreturn)

/-- A part may be taken away where no line end is torn. -/
theorem left_of_append (hback : ∀ rest, back ≠ '\n' :: rest) (happend : CrlfEnded (front ++ back)) :
    CrlfEnded front := by
  generalize htext : front ++ back = text at happend
  induction happend generalizing front with
  | nil =>
      obtain ⟨rfl, _⟩ := List.append_eq_nil_iff.mp htext
      exact .nil
  | @newline rest _ ih =>
      cases front with
      | nil => exact .nil
      | cons d front =>
          obtain ⟨rfl, htail⟩ := List.cons.inj htext
          cases front with
          | nil => exact absurd htail (hback rest)
          | cons d front =>
              obtain ⟨rfl, hrest⟩ := List.cons.inj htail
              exact .newline (ih hrest)
  | @char c rest hreturn hfeed _ ih =>
      cases front with
      | nil => exact .nil
      | cons d front =>
          obtain ⟨rfl, htail⟩ := List.cons.inj htext
          exact .char hreturn hfeed (ih htail)

/-- Occurrences of a text whose line ends are such do not tear one. -/
theorem separable {pattern : List Char} (hpattern : CrlfEnded pattern) (hne : pattern ≠ []) :
    Separable pattern CrlfEnded := by
  obtain ⟨c, pattern, rfl⟩ := List.exists_cons_of_ne_nil hne
  have hbefore : ∀ before after, CrlfEnded (before ++ (c :: pattern) ++ after) →
      CrlfEnded before := by
    intro before after h
    rw [List.append_assoc] at h
    refine left_of_append (fun rest hrest => ?_) h
    exact hpattern.head_ne (List.cons.inj hrest).1
  refine ⟨hbefore, fun before after h => ?_, fun _ _ => append⟩
  exact right_of_left ((hbefore before after h).append hpattern) h

end CrlfEnded

theorem separable_notMem {α : Type} (a : α) (pattern : List α) :
    Separable pattern fun text => a ∉ text where
  before _ _ h hmem := h (by simp [hmem])
  after _ _ h hmem := h (by simp [hmem])
  append _ _ hfront hback hmem := (List.mem_append.mp hmem).elim hfront hback

/-! ### Line ends of what is searched and put in its place -/

section Normalized

variable (value newline : String)

/-- A value whose line ends are line feeds. -/
def feeds : List Char := (replaceText "\r" "\n" (replaceText "\r\n" "\n" value)).toList

theorem feeds_eq : feeds value = (replaceText "\r\n" "\n" value).toList.flatMap
    fun c => if c = '\r' then ['\n'] else [c] := by
  rw [feeds, replaceText, String.toList_ofList]
  exact replace_singleton '\r' ['\n'] _

theorem return_notMem_feeds : '\r' ∉ feeds value := by
  rw [feeds_eq, List.mem_flatMap]
  rintro ⟨c, _, hmem⟩
  split_ifs at hmem with hc
  · exact absurd (List.mem_singleton.mp hmem) (by decide)
  · exact hc (List.mem_singleton.mp hmem).symm

theorem toList_normalizeNewlines : (normalizeNewlines value newline).toList =
    (feeds value).flatMap fun c => if c = '\n' then newline.toList else [c] := by
  rw [normalizeNewlines, replaceText, String.toList_ofList]
  exact replace_singleton '\n' newline.toList (feeds value)

theorem return_notMem_normalizeNewlines : '\r' ∉ (normalizeNewlines value "\n").toList := by
  rw [toList_normalizeNewlines, List.mem_flatMap]
  rintro ⟨c, hc, hmem⟩
  split_ifs at hmem with hfeed
  · exact absurd (List.mem_singleton.mp hmem) (by decide)
  · obtain rfl := List.mem_singleton.mp hmem
    exact return_notMem_feeds value hc

theorem crlfEnded_normalizeNewlines : CrlfEnded (normalizeNewlines value "\r\n").toList := by
  rw [toList_normalizeNewlines]
  have hreturn := return_notMem_feeds value
  generalize feeds value = cs at hreturn
  induction cs with
  | nil => exact .nil
  | cons c rest ih =>
      obtain ⟨hc, hrest⟩ : '\r' ≠ c ∧ '\r' ∉ rest := by simpa using hreturn
      rw [List.flatMap_cons]
      refine CrlfEnded.append ?_ (ih hrest)
      split_ifs with hfeed
      · exact .newline .nil
      · exact .char (Ne.symm hc) hfeed .nil

theorem replaceText_ne_nil {pattern new text : String} (hpattern : pattern.toList ≠ [])
    (hnew : new.toList ≠ []) (htext : text.toList ≠ []) :
    (replaceText pattern new text).toList ≠ [] := by
  intro hnil
  rw [replaceText, String.toList_ofList] at hnil
  exact htext (replace_eq_nil hpattern hnew hnil)

theorem normalizeNewlines_ne_nil {value newline : String} (hvalue : value.toList ≠ [])
    (hnewline : newline.toList ≠ []) : (normalizeNewlines value newline).toList ≠ [] := by
  have hcrlf : "\r\n".toList ≠ [] := by simp
  have hreturn : "\r".toList ≠ [] := by simp
  have hfeed : "\n".toList ≠ [] := by simp
  rw [normalizeNewlines]
  exact replaceText_ne_nil hfeed hnewline
    (replaceText_ne_nil hreturn hfeed (replaceText_ne_nil hcrlf hfeed hvalue))

end Normalized

/-! ### The edits -/

/-- A text after some edits. Each finds its own text, with the line ends of the
file, as often as it says in what the edits before it have left. -/
inductive Edited (newline : String) : String → List TextEdit → String → Prop
  | done {text : String} : Edited newline text [] text
  | edit {text final : String} {edit : TextEdit} {edits : List TextEdit} {pieces : List (List Char)}
      (hcut : Cut (normalizeNewlines edit.oldText newline).toList text.toList pieces)
      (hcount : pieces.length = edit.expectedOccurrences + 1)
      (hrest : Edited newline
        (String.ofList ((normalizeNewlines edit.newText newline).toList.intercalate pieces)) edits
        final) :
      Edited newline text (edit :: edits) final

section Edits

variable {newline text final : String} {edits : List TextEdit}

/-- The edits are made where each finds its text. -/
theorem applyEdits_eq_ok (hnewline : newline.toList ≠ [])
    (hedits : ∀ edit ∈ edits, edit.oldText.toList ≠ []) (index : ℕ) :
    applyEdits newline index edits text = .ok final ↔ Edited newline text edits final := by
  induction edits generalizing text index with
  | nil =>
      rw [applyEdits, pure_eq_ok]
      constructor
      · rintro rfl
        exact .done
      · rintro ⟨⟩
        rfl
  | cons edit edits ih =>
      obtain ⟨hedit, hedits⟩ := List.forall_mem_cons.mp hedits
      have hcut := cut_split (normalizeNewlines_ne_nil hedit hnewline) text.toList
      have hlength : occurrences (normalizeNewlines edit.oldText newline).toList text.toList + 1 =
          (split (normalizeNewlines edit.oldText newline).toList text.toList).length :=
        Nat.sub_add_cancel (List.length_pos_iff.mpr hcut.ne_nil)
      simp only [applyEdits, bind_eq_ok, exists_unit, failIf_eq_ok, ih hedits, not_not]
      constructor
      · rintro ⟨hcount, hrest⟩
        exact .edit hcut (by rw [← hlength, hcount]) hrest
      · rintro (_ | ⟨hcut', hcount, hrest⟩)
        obtain rfl := hcut'.unique hcut
        exact ⟨Nat.succ_injective (hlength.trans hcount), hrest⟩

/-- What every edit preserves, all preserve. -/
theorem Edited.preserves {U : List Char → Prop}
    (hold : ∀ edit ∈ edits, Separable (normalizeNewlines edit.oldText newline).toList U)
    (hnew : ∀ value, U (normalizeNewlines value newline).toList)
    (h : Edited newline text edits final) (htext : U text.toList) : U final.toList := by
  induction h with
  | done => exact htext
  | @edit text final edit edits pieces hcut hcount hrest ih =>
      obtain ⟨hedit, hedits⟩ := List.forall_mem_cons.mp hold
      refine ih hedits ?_
      rw [String.toList_ofList]
      exact hcut.replaced hedit (hnew edit.newText) htext

end Edits

/-! ### What is prepared -/

section Prepared

variable {P : Primitives} {codec : Windows1252} {host : ReadHost} {allowedRoots : List String}
  {authorization : Authorization} {edits : List TextEdit} {target : String} {original : List UInt8}
  {decoded : DecodedText}

theorem detectedNewline_ne_nil (text : String) : (detectedNewline text).toList ≠ [] := by
  rw [detectedNewline]
  split_ifs <;> simp

/-- What is asked of a list of edits. -/
def AcceptedEdits (edits : List TextEdit) : Prop :=
  edits ≠ [] ∧ edits.length ≤ maxEdits ∧
    ∀ edit ∈ edits, edit.oldText ≠ "" ∧ 0 < edit.expectedOccurrences

theorem AcceptedEdits.oldText_ne_nil (h : AcceptedEdits edits) :
    ∀ edit ∈ edits, edit.oldText.toList ≠ [] := fun edit hedit hnil =>
  (h.2.2 edit hedit).1 (String.toList_eq_nil_iff.mp hnil)

/-- What a list of edits prepares of a file that can be read. -/
theorem prepareEdit_eq_ok
    (hauthorized : ensureApprovalAction authorization "filesystem.write" = .ok ())
    (hresolved : resolveReadTarget host allowedRoots authorization.request.envelope.target =
      .ok target)
    (hread : host.read target = .ok original)
    (hdecoded : decodeEditText codec original = .ok decoded)
    {prepared : PreparedEdit} :
    prepareEdit P codec host allowedRoots authorization edits = .ok prepared ↔
      AcceptedEdits edits ∧ ∃ edited,
        Edited (detectedNewline decoded.text) decoded.text edits edited ∧
        encodeEditText codec edited decoded.encoding = .ok prepared.content ∧
        prepared.content.length ≤ maxEditFileBytes ∧
        prepared.originalSha256 = sha256Hex P original ∧
        prepared.diffSummary = (unifiedDiffSummary decoded.text edited).1 ∧
        prepared.diffTruncated = (unifiedDiffSummary decoded.text edited).2 := by
  have haccepted : ¬ (edits = [] ∨ maxEdits < edits.length ∨
      ∃ edit ∈ edits, edit.oldText = "" ∨ edit.expectedOccurrences = 0) ↔ AcceptedEdits edits := by
    simp only [AcceptedEdits, not_or, not_exists, not_and, Nat.pos_iff_ne_zero, Nat.not_lt, ne_eq]
  simp only [prepareEdit, hauthorized, hresolved, bind_eq_ok, exists_unit, failIf_eq_ok, haccepted,
    Nat.not_lt, pure_eq_ok, Except.ok.injEq, exists_eq_left', true_and, hread, hdecoded]
  refine and_congr_right fun hedits => ?_
  have happlied : ∀ edited, applyEdits (detectedNewline decoded.text) 0 edits decoded.text =
      .ok edited ↔ Edited (detectedNewline decoded.text) decoded.text edits edited := fun edited =>
    applyEdits_eq_ok (detectedNewline_ne_nil _) hedits.oldText_ne_nil 0
  constructor
  · rintro ⟨edited, hedited, content, hcontent, hlength, rfl⟩
    refine ⟨edited, (happlied edited).mp hedited, hcontent, hlength, ?_⟩
    simp only [and_self]
  · rintro ⟨edited, hedited, hcontent, hlength, hdigest, hsummary, htruncated⟩
    refine ⟨edited, (happlied edited).mpr hedited, _, hcontent, hlength, ?_⟩
    rw [← hdigest, ← hsummary, ← htruncated]

/-- An edit is prepared if and only if each edit of a list that is accepted finds
its text as often as it says, and the result can be encoded and is not too long. The
result is what is encoded; line ends that are all alike stay so. -/
theorem prepareEdit_iff
    (hauthorized : ensureApprovalAction authorization "filesystem.write" = .ok ())
    (hresolved : resolveReadTarget host allowedRoots authorization.request.envelope.target =
      .ok target)
    (hread : host.read target = .ok original)
    (hdecoded : decodeEditText codec original = .ok decoded) :
    ((∃ prepared, prepareEdit P codec host allowedRoots authorization edits = .ok prepared) ↔
      (edits ≠ [] ∧ edits.length ≤ maxEdits ∧
        ∀ edit ∈ edits, edit.oldText ≠ "" ∧ 0 < edit.expectedOccurrences) ∧
      ∃ edited content, Edited (detectedNewline decoded.text) decoded.text edits edited ∧
        encodeEditText codec edited decoded.encoding = .ok content ∧
        content.length ≤ maxEditFileBytes) ∧
    ∀ prepared, prepareEdit P codec host allowedRoots authorization edits = .ok prepared →
      ∃ edited, Edited (detectedNewline decoded.text) decoded.text edits edited ∧
        encodeEditText codec edited decoded.encoding = .ok prepared.content ∧
        (containsString decoded.text "\r\n" = true → CrlfEnded decoded.text.toList →
          CrlfEnded edited.toList) ∧
        ('\r' ∉ decoded.text.toList → '\r' ∉ edited.toList) := by
  have hprepared : ∀ prepared, prepareEdit P codec host allowedRoots authorization edits =
      .ok prepared ↔ _ := fun prepared => prepareEdit_eq_ok hauthorized hresolved hread hdecoded
  constructor
  · constructor
    · rintro ⟨prepared, h⟩
      obtain ⟨haccepted, edited, hedited, hcontent, hlength, _⟩ := (hprepared prepared).mp h
      exact ⟨haccepted, edited, prepared.content, hedited, hcontent, hlength⟩
    · rintro ⟨haccepted, edited, content, hedited, hcontent, hlength⟩
      refine ⟨⟨content, sha256Hex P original, (unifiedDiffSummary decoded.text edited).1,
        (unifiedDiffSummary decoded.text edited).2⟩, (hprepared _).mpr ?_⟩
      refine ⟨haccepted, edited, hedited, hcontent, hlength, ?_⟩
      simp only [and_self]
  · intro prepared h
    obtain ⟨haccepted, edited, hedited, hcontent, _⟩ := (hprepared prepared).mp h
    have hold := haccepted.oldText_ne_nil
    refine ⟨edited, hedited, hcontent, fun hcontains hcrlf => ?_, fun hnone => ?_⟩
    · have hnewline : detectedNewline decoded.text = "\r\n" := if_pos hcontains
      rw [hnewline] at hedited
      -- no occurrence of the old text cuts a line end in two
      refine hedited.preserves (fun edit hedit => ?_) crlfEnded_normalizeNewlines hcrlf
      have hne := normalizeNewlines_ne_nil (hold edit hedit) (by simp : "\r\n".toList ≠ [])
      exact (crlfEnded_normalizeNewlines edit.oldText).separable hne
    · have hnewline : detectedNewline decoded.text = "\n" := by
        refine if_neg fun hcontains => hnone ?_
        exact (of_decide_eq_true hcontains).subset (by simp)
      rw [hnewline] at hedited
      exact hedited.preserves (fun edit _ => separable_notMem '\r' _)
        return_notMem_normalizeNewlines hnone

end Prepared

namespace EditSample

/-- A file of one line, which ends with a carriage return and a line feed. -/
def host : ReadHost where
  rejectReparse _ := .ok ()
  canonicalize path := .ok path
  isFile _ := true
  multipleHardlinks _ := .ok false
  read _ := .ok [0x61, 0x0d, 0x0a]

/-- A write to the file for which an approval is asked. -/
def authorization : Authorization where
  request :=
    { envelope :=
        { requestId := "request", organizationId := "local", actorId := "agent"
          deviceId := "device", action := "filesystem.write", target := "C:\\work\\a.txt"
          parameters := ∅, requestedCapabilities := [], expiresAtUnixMs := 1000
          nonce := List.replicate 16 7 }
      envelopeDigest := Vector.replicate 32 0 }
  decision :=
    { requestId := "request", envelopeDigest := Vector.replicate 32 0, kind := .approval
      policyId := "sample", reasonCode := "filesystem_rule", requiredCapability := none }

/-- The line becomes another. -/
def edits : List TextEdit := [⟨"a\n", "b\n", 1⟩]

end EditSample

open EditSample EncodingSample in
/-- The line is found although the edit gives it another end. -/
theorem prepareEdit_iff_line :
    ∃ prepared, prepareEdit reference codec EditSample.host ["C:\\work"] authorization
      EditSample.edits = .ok prepared := by
  have hdecoded : decodeEditText codec [0x61, 0x0d, 0x0a] = .ok ⟨"a\r\n", .utf8⟩ := by
    decide
  have hresolved : resolveReadTarget EditSample.host ["C:\\work"]
      authorization.request.envelope.target = .ok "C:\\work\\a.txt" := by decide
  refine (prepareEdit_iff (by decide) hresolved rfl hdecoded).1.mpr ?_
  refine ⟨by decide, "b\r\n", [0x62, 0x0d, 0x0a], ?_, by decide, by decide⟩
  exact (applyEdits_eq_ok (detectedNewline_ne_nil _) (by decide) 0).mp (by decide)

end VorCommander
