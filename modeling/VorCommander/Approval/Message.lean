import VorCommander.Approval
import VorCommander.Text.Lines

/-!
What a signature under an approval message says.

The message is a sequence of parts. Each part can be told from what follows it:
a digest, an expiry and a nonce because their lengths are fixed, a text because
its length stands before it, and a capability that may be absent because of the
byte in front of it. So the bytes of a message name one challenge and one
approver.
-/

namespace VorCommander

open Crypto Steps Text

/-! ### One part -/

/-- What `push_text` appends. -/
theorem pushText_eq_ok {value : String} {bytes : List UInt8} (h : pushText value = .ok bytes) :
    byteLength value < 256 ^ 4 ∧ bytes = bigEndian 4 (byteLength value) ++ utf8 value := by
  simp only [pushText, bind_eq_ok, exists_unit, failIf_eq_ok, pure_eq_ok, Nat.not_le] at h
  obtain ⟨-, hfits, rfl⟩ := h
  exact ⟨by omega, rfl⟩

/-- A text with its length before it ends where its length says. -/
theorem pushText_append_inj {value value' : String} {bytes bytes' rest rest' : List UInt8}
    (h : pushText value = .ok bytes) (h' : pushText value' = .ok bytes')
    (heq : bytes ++ rest = bytes' ++ rest') : value = value' ∧ rest = rest' := by
  obtain ⟨hfits, rfl⟩ := pushText_eq_ok h
  obtain ⟨hfits', rfl⟩ := pushText_eq_ok h'
  rw [List.append_assoc, List.append_assoc] at heq
  obtain ⟨hlengths, htexts⟩ := List.append_inj heq (by simp)
  have hlength : byteLength value = byteLength value' := bigEndian_inj hfits hfits' hlengths
  obtain ⟨htext, hrest⟩ := List.append_inj htexts hlength
  exact ⟨utf8_injective htext, hrest⟩

/-- The byte in front says whether a capability follows. -/
theorem pushCapability_append_inj {capability capability' : Option String}
    {bytes bytes' rest rest' : List UInt8} (h : pushCapability capability = .ok bytes)
    (h' : pushCapability capability' = .ok bytes') (heq : bytes ++ rest = bytes' ++ rest') :
    capability = capability' ∧ rest = rest' := by
  cases capability with
  | none =>
      obtain rfl : [0] = bytes := by simpa [pushCapability] using h
      cases capability' with
      | none =>
          obtain rfl : [0] = bytes' := by simpa [pushCapability] using h'
          exact ⟨rfl, (List.cons.inj heq).2⟩
      | some value' =>
          simp only [pushCapability, bind_eq_ok, pure_eq_ok] at h'
          obtain ⟨text', -, rfl⟩ := h'
          exact absurd (List.cons.inj heq).1 (by decide)
  | some value =>
      simp only [pushCapability, bind_eq_ok, pure_eq_ok] at h
      obtain ⟨text, htext, rfl⟩ := h
      cases capability' with
      | none =>
          obtain rfl : [0] = bytes' := by simpa [pushCapability] using h'
          exact absurd (List.cons.inj heq).1 (by decide)
      | some value' =>
          simp only [pushCapability, bind_eq_ok, pure_eq_ok] at h'
          obtain ⟨text', htext', rfl⟩ := h'
          obtain ⟨hvalue, hrest⟩ := pushText_append_inj htext htext' (List.cons.inj heq).2
          exact ⟨congrArg some hvalue, hrest⟩

/-! ### The whole message -/

/-- A message is read back from its beginning, one part after the other. -/
theorem eq_of_approvalMessage_eq {challenge challenge' : ApprovalChallenge}
    {approverId approverId' : String} {message : List UInt8}
    (hexpiry : challenge.expiresAtUnixMs < 2 ^ 64) (hexpiry' : challenge'.expiresAtUnixMs < 2 ^ 64)
    (h : approvalMessage challenge approverId = .ok message)
    (h' : approvalMessage challenge' approverId' = .ok message) :
    challenge = challenge' ∧ approverId = approverId' := by
  simp only [approvalMessage, bind_eq_ok, pure_eq_ok] at h h'
  obtain ⟨requestId, hrequestId, policyId, hpolicyId, capability, hcapability, approver,
    happrover, rfl⟩ := h
  obtain ⟨requestId', hrequestId', policyId', hpolicyId', capability', hcapability', approver',
    happrover', heq⟩ := h'
  simp only [List.append_assoc] at heq
  have heq := (List.append_cancel_left heq).symm
  obtain ⟨hrequest, heq⟩ := pushText_append_inj hrequestId hrequestId' heq
  obtain ⟨hdigest, heq⟩ := List.append_inj heq (by simp)
  obtain ⟨hpolicy, heq⟩ := pushText_append_inj hpolicyId hpolicyId' heq
  obtain ⟨hrequired, heq⟩ := pushCapability_append_inj hcapability hcapability' heq
  obtain ⟨hexpires, heq⟩ := List.append_inj heq (by simp)
  obtain ⟨hnonce, heq⟩ := List.append_inj heq (by simp)
  -- the approver is the last part and nothing follows it
  have hlast : approver ++ [] = approver' ++ [] := by rw [List.append_nil, List.append_nil, heq]
  obtain ⟨happroverId, -⟩ := pushText_append_inj happrover happrover' hlast
  have hexpires := bigEndian_inj (by omega) (by omega) hexpires
  refine ⟨?_, happroverId⟩
  cases challenge
  cases challenge'
  simp_all [Vector.toList_inj]

/-- An approval message says which challenge is approved and by whom, whatever
the lengths and the contents of its texts. -/
theorem approvalMessage_inj (challenge challenge' : ApprovalChallenge)
    (approverId approverId' : String)
    (hexpiry : challenge.expiresAtUnixMs < 2 ^ 64) (hexpiry' : challenge'.expiresAtUnixMs < 2 ^ 64)
    (haccepted : (approvalMessage challenge approverId).toOption.isSome)
    (heq : approvalMessage challenge approverId = approvalMessage challenge' approverId') :
    challenge = challenge' ∧ approverId = approverId' := by
  obtain ⟨message, hmessage⟩ := Option.isSome_iff_exists.mp haccepted
  have h := toOption_eq_some.mp hmessage
  exact eq_of_approvalMessage_eq hexpiry hexpiry' h (heq ▸ h)

/-- A challenge, and the same put together from other pieces. -/
theorem approvalMessage_inj_sample :
    let challenge : ApprovalChallenge :=
      { requestId := "request", envelopeDigest := Vector.replicate 32 0, policyId := "policy"
        requiredCapability := some "elevated", expiresAtUnixMs := 1000
        approvalNonce := Vector.replicate 32 7 }
    let challenge' : ApprovalChallenge :=
      { challenge with requestId := "req" ++ "uest", policyId := "pol" ++ "icy" }
    challenge = challenge' ∧ "approver" = "app" ++ "rover" :=
  approvalMessage_inj _ _ _ _ (by decide) (by decide) (by decide) rfl

end VorCommander
