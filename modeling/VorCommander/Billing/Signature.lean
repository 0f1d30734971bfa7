import Mathlib.Algebra.Order.Group.Abs
import Mathlib.Algebra.Order.Group.Int
import VorCommander.Billing.Webhook
import VorCommander.Crypto.Hmac
import VorCommander.Crypto.Primitives
import VorCommander.Text.Lines

/-!
The signatures of webhook events.

A header names a time and the hashes of the body that are claimed for it, among
fields that are passed over. A hash counts if it is that of the time and the body
under the secret, and the time if it is near the one of the clock. The keyed hash
is written out here, block by block.
-/

namespace VorCommander

open Crypto Steps Text

/-- `BillingError::InvalidSignature`, the one error of the check. -/
inductive SignatureError
  | invalidSignature
  deriving DecidableEq

/-- `SIGNATURE_TOLERANCE_SECONDS`. -/
def signatureToleranceSeconds : ℕ := 300

/-- The latest time that is near, `now.saturating_add(SIGNATURE_TOLERANCE_SECONDS)`. -/
def saturatingLatest (now : ℕ) : ℕ := min (now + signatureToleranceSeconds) (2 ^ 64 - 1)

/-! ### The keyed hash -/

/-- `copy_from_slice` to the beginning of a block. -/
def copyInto (block bytes : List UInt8) : List UInt8 := bytes ++ block.drop bytes.length

/-- The loop that combines a padding with the key, byte by byte. -/
def xorInto (pad normalized : List UInt8) : List UInt8 :=
  (List.range pad.length).foldl (fun pad i => pad.modify i (· ^^^ normalized.getD i 0)) pad

/-- `hmac_sha256`. -/
def hmacSha256 (P : Primitives) (key message : List UInt8) : Hash :=
  let zeros := List.replicate 64 0
  let normalized :=
    if 64 < key.length then copyInto zeros (P.sha256 key).toList else copyInto zeros key
  let ipad := xorInto (List.replicate 64 0x36) normalized
  let opad := xorInto (List.replicate 64 0x5c) normalized
  let inner := P.sha256 (ipad ++ message)
  P.sha256 (opad ++ inner.toList)

/-- `constant_time_eq`. -/
def constantTimeEq (left right : List UInt8) : Bool :=
  if left.length ≠ right.length then false
  else (left.zip right).foldl (fun acc bytes => acc ||| (bytes.1 ^^^ bytes.2)) 0 = 0

/-! ### The header -/

/-- What is read from a header: the time, and the hashes that are claimed. -/
structure SignatureHeader where
  timestamp : Option ℕ := none
  signatures : List String := []

/-- One part of the header. -/
def SignatureHeader.read (header : SignatureHeader) (part : String) : SignatureHeader :=
  match splitOnce '=' part with
  | none => header
  | some (key, value) =>
      if key = "t" then { header with timestamp := parseU64 value }
      else if key = "v1" then { header with signatures := header.signatures ++ [value] }
      else header

/-- `verify_stripe_signature`. -/
def verifyStripeSignature (P : Primitives) (secret header : String) (body : List UInt8) (now : ℕ) :
    Except SignatureError Unit := do
  let read := (splitChars (· = ',') header).foldl SignatureHeader.read {}
  let timestamp ← orFail read.timestamp .invalidSignature
  failIf (saturatingLatest now < timestamp ∨
    signatureToleranceSeconds < now - timestamp) .invalidSignature
  let signed := utf8 (String.ofList (encodeNat timestamp)) ++ utf8 "." ++ body
  let expected := hexEncode (hmacSha256 P (utf8 secret) signed).toList
  if read.signatures.any fun signature => constantTimeEq (utf8 signature) (utf8 expected) then
    .ok ()
  else .error .invalidSignature

/-! ### What is computed -/

/-- The loop has combined the bytes before its index. -/
theorem getElem?_foldl_modify (pad normalized : List UInt8) (n i : ℕ) :
    ((List.range n).foldl (fun pad i => pad.modify i (· ^^^ normalized.getD i 0)) pad)[i]? =
      pad[i]?.map fun byte => if i < n then byte ^^^ normalized.getD i 0 else byte := by
  induction n with
  | zero => simp
  | succ n ih =>
      rw [List.range_succ, List.foldl_append, List.foldl_cons, List.foldl_nil,
        List.getElem?_modify, ih, Option.map_eq_map, Option.map_map]
      refine Option.map_congr fun byte _ => ?_
      by_cases hi : n = i
      · simp [hi]
      · have hlt : i < n + 1 ↔ i < n := by omega
        simp [hi, hlt]

/-- A padding that is the same byte throughout is combined with each byte of the key. -/
theorem xorInto_replicate {pad : UInt8} {normalized : List UInt8} {n : ℕ}
    (h : normalized.length = n) :
    xorInto (List.replicate n pad) normalized = xorWith pad normalized := by
  subst h
  apply List.ext_getElem?
  intro i
  rw [xorInto, getElem?_foldl_modify, List.length_replicate, xorWith, List.getElem?_map,
    List.getElem?_replicate]
  by_cases hi : i < normalized.length
  · simp [hi, UInt8.xor_comm]
  · simp [hi]

/-- What is copied over zeros is filled up with them. -/
theorem copyInto_replicate (n : ℕ) (bytes : List UInt8) :
    copyInto (List.replicate n 0) bytes = bytes.rightpad n 0 := by
  rw [copyInto, List.drop_replicate, List.rightpad]

/-- The keyed hash is that of RFC 2104, for keys of every length. -/
theorem hmacSha256_eq (P : Primitives) (key message : List UInt8) :
    (hmacSha256 P key message).toList =
      hmac (fun bytes => (P.sha256 bytes).toList) 64 key message := by
  have hnormalized : (if 64 < key.length then copyInto (List.replicate 64 0) (P.sha256 key).toList
      else copyInto (List.replicate 64 0) key) =
        blockKey (fun bytes => (P.sha256 bytes).toList) 64 key := by
    rw [copyInto_replicate, copyInto_replicate, blockKey]
    split <;> rfl
  have hlength : (blockKey (fun bytes => (P.sha256 bytes).toList) 64 key).length = 64 :=
    length_blockKey (by simp)
  simp only [hmacSha256, hmac, hnormalized, xorInto_replicate hlength]

theorem foldl_or_eq_zero_iff {left right : List UInt8} (h : left.length = right.length)
    (acc : UInt8) :
    (left.zip right).foldl (fun acc bytes => acc ||| (bytes.1 ^^^ bytes.2)) acc = 0 ↔
      acc = 0 ∧ left = right := by
  induction left generalizing right acc with
  | nil =>
      rw [List.length_nil, eq_comm, List.length_eq_zero_iff] at h
      simp [h]
  | cons byte left ih =>
      cases right with
      | nil => cases h
      | cons byte' right =>
          rw [List.zip_cons_cons, List.foldl_cons, ih (Nat.succ.inj h), UInt8.or_eq_zero_iff,
            UInt8.xor_eq_zero_iff, List.cons.injEq, and_assoc]

theorem constantTimeEq_iff {left right : List UInt8} :
    constantTimeEq left right = true ↔ left = right := by
  rw [constantTimeEq]
  split
  case isTrue h =>
    refine ⟨fun hfalse => absurd hfalse Bool.false_ne_true, ?_⟩
    rintro rfl
    exact absurd rfl h
  case isFalse h =>
    rw [decide_eq_true_iff, foldl_or_eq_zero_iff (not_not.mp h)]
    exact ⟨fun hboth => hboth.2, fun heq => ⟨rfl, heq⟩⟩

/-! ### The fields of a header -/

/-- The fields of a header, each a key and a value. -/
def signatureFields (header : String) : List (String × String) :=
  (splitChars (· = ',') header).filterMap (splitOnce '=')

/-- The last field of a name has this value. -/
def IsLast (fields : List (String × String)) (name value : String) : Prop :=
  ∃ before after, fields = before ++ (name, value) :: after ∧ ∀ field ∈ after, field.1 ≠ name

theorem not_isLast_nil {name value : String} : ¬ IsLast [] name value := by
  rintro ⟨before, after, h, -⟩
  simp at h

theorem isLast_concat {fields : List (String × String)} {field : String × String}
    {name value : String} :
    IsLast (fields ++ [field]) name value ↔
      field = (name, value) ∨ field.1 ≠ name ∧ IsLast fields name value := by
  constructor
  · rintro ⟨before, after, h, hafter⟩
    rcases List.eq_nil_or_concat after with rfl | ⟨after, last, rfl⟩
    · exact .inl (List.append_inj_right' h rfl |> List.singleton_injective)
    · rw [List.concat_eq_append, ← List.cons_append, ← List.append_assoc] at h
      obtain ⟨hfields, hlast⟩ := List.append_inj' h rfl
      obtain rfl := List.singleton_injective hlast
      refine .inr ⟨hafter field (by simp), before, after, hfields, fun other hother => ?_⟩
      exact hafter other (by simp [hother])
  · rintro (rfl | ⟨hne, before, after, rfl, hafter⟩)
    · exact ⟨fields, [], rfl, by simp⟩
    · refine ⟨before, after ++ [field], by simp, fun other hother => ?_⟩
      rcases List.mem_append.mp hother with hother | hother
      · exact hafter other hother
      · rwa [List.mem_singleton.mp hother]

/-- The time is the number in the last `t`, if that is one. -/
theorem timestamp_eq_some_iff {parts : List String} {t : ℕ} :
    (parts.foldl SignatureHeader.read {}).timestamp = some t ↔
      ∃ value, IsLast (parts.filterMap (splitOnce '=')) "t" value ∧ parseU64 value = some t := by
  induction parts using List.reverseRecOn with
  | nil => simp [not_isLast_nil]
  | append_singleton parts part ih =>
      rw [List.foldl_append, List.foldl_cons, List.foldl_nil, List.filterMap_append,
        SignatureHeader.read]
      cases hsplit : splitOnce '=' part with
      | none => simpa [hsplit] using ih
      | some field =>
          obtain ⟨key, value⟩ := field
          by_cases hkey : key = "t"
          · subst hkey
            simp [hsplit, isLast_concat]
          · have hread : (if key = "v1" then
                { timestamp := (parts.foldl SignatureHeader.read {}).timestamp,
                  signatures := (parts.foldl SignatureHeader.read {}).signatures ++ [value] }
                else parts.foldl SignatureHeader.read {}).timestamp =
                  (parts.foldl SignatureHeader.read {}).timestamp := by
              split <;> rfl
            simp [hsplit, isLast_concat, hkey, hread, ih]

/-- Every `v1` is kept. -/
theorem mem_signatures_iff {parts : List String} {signature : String} :
    signature ∈ (parts.foldl SignatureHeader.read {}).signatures ↔
      ("v1", signature) ∈ parts.filterMap (splitOnce '=') := by
  induction parts using List.reverseRecOn with
  | nil => simp
  | append_singleton parts part ih =>
      rw [List.foldl_append, List.foldl_cons, List.foldl_nil, List.filterMap_append,
        SignatureHeader.read]
      cases hsplit : splitOnce '=' part with
      | none => simpa [hsplit] using ih
      | some field =>
          obtain ⟨key, value⟩ := field
          by_cases ht : key = "t"
          · simp [hsplit, ht, ih]
          · by_cases hv1 : key = "v1"
            · simp [hsplit, hv1, ih]
            · simp [hsplit, ht, hv1, ih, Ne.symm hv1]

/-- The comparison that saturates is the exact one, for a time that fits. -/
theorem saturatingLatest_lt_iff {now t : ℕ} (ht : t < 2 ^ 64) :
    saturatingLatest now < t ↔ now + signatureToleranceSeconds < t := by
  rw [saturatingLatest]
  omega

theorem abs_sub_le_iff_nat {t now n : ℕ} :
    |(t : ℤ) - now| ≤ n ↔ ¬ (now + n < t ∨ n < now - t) := by
  rw [abs_le]
  omega

theorem lt_of_parseU64_eq_some {value : String} {t : ℕ} (h : parseU64 value = some t) :
    t < 2 ^ 64 := by
  rw [parseU64, Option.ite_none_right_eq_some] at h
  obtain ⟨⟨-, -, hlt⟩, ht⟩ := h
  exact Option.some.inj ht ▸ hlt

/-- The hashes are compared byte by byte, to the last. -/
theorem any_constantTimeEq_iff {signatures : List String} {expected : String} :
    (signatures.any fun signature => constantTimeEq (utf8 signature) (utf8 expected)) = true ↔
      expected ∈ signatures := by
  rw [List.any_eq_true]
  constructor
  · rintro ⟨signature, hmem, heq⟩
    rwa [← utf8_injective (constantTimeEq_iff.mp heq)]
  · intro hmem
    exact ⟨expected, hmem, constantTimeEq_iff.mpr rfl⟩

/-- A body is accepted if and only if the last time of the header is near, and one of its hashes
is that of the time and the body; the hash is the one of RFC 2104. -/
theorem verifyStripeSignature_eq_ok_iff (P : Primitives) :
    (∀ key message, (hmacSha256 P key message).toList =
      hmac (fun bytes => (P.sha256 bytes).toList) 64 key message) ∧
    ∀ (secret header : String) (body : List UInt8) (now : ℕ),
      verifyStripeSignature P secret header body now = .ok () ↔
        ∃ value t, IsLast (signatureFields header) "t" value ∧ parseU64 value = some t ∧
          |(t : ℤ) - now| ≤ signatureToleranceSeconds ∧
          ("v1", hexEncode (hmac (fun bytes => (P.sha256 bytes).toList) 64 (utf8 secret)
            (utf8 (String.ofList (encodeNat t) ++ ".") ++ body))) ∈ signatureFields header := by
  refine ⟨hmacSha256_eq P, fun secret header body now => ?_⟩
  have htext : ∀ t, utf8 (String.ofList (encodeNat t)) ++ utf8 "." ++ body =
      utf8 (String.ofList (encodeNat t) ++ ".") ++ body := fun t => by rw [utf8_append]
  simp only [verifyStripeSignature, bind_eq_ok, orFail_eq_ok, failIf_eq_ok]
  constructor
  · rintro ⟨t, htime, -, hnear, hok⟩
    obtain ⟨value, hlast, hparse⟩ := timestamp_eq_some_iff.mp htime
    split at hok
    case isFalse => cases hok
    case isTrue hany =>
      rw [any_constantTimeEq_iff, mem_signatures_iff, htext, hmacSha256_eq] at hany
      rw [saturatingLatest_lt_iff (lt_of_parseU64_eq_some hparse)] at hnear
      exact ⟨value, t, hlast, hparse, abs_sub_le_iff_nat.mpr hnear, hany⟩
  · rintro ⟨value, t, hlast, hparse, hnear, hmem⟩
    refine ⟨t, timestamp_eq_some_iff.mpr ⟨value, hlast, hparse⟩, (), ?_, ?_⟩
    · rw [saturatingLatest_lt_iff (lt_of_parseU64_eq_some hparse)]
      exact abs_sub_le_iff_nat.mp hnear
    · rw [if_pos]
      rw [any_constantTimeEq_iff, mem_signatures_iff, htext, hmacSha256_eq]
      exact hmem

end VorCommander
