import Mathlib.Logic.Function.Basic
import VorCommander.Audit.Stores

/-!
A reader for the records that are written.

All events have one shape, and so have all records. Their texts therefore
stand for one event or record each, and what is missing from a text that was
cut off shows. So the reader that searches for the value with a given text has
what is asked of the JSON library.
-/

namespace VorCommander

open Crypto Text

theorem digestJson_injective : Function.Injective digestJson := by
  intro digest digest' h
  have hnumber : Function.Injective fun b : UInt8 => Value.posInt b.toNat := by
    intro b b' hb
    exact UInt8.toNat_inj.mp (Value.posInt.inj hb)
  have hlist := List.map_injective_iff.mpr hnumber (Value.array.inj h)
  exact Vector.toList_inj.mp hlist

theorem AuditEvent.toJson_injective : Function.Injective AuditEvent.toJson := by
  intro e e' h
  cases e
  cases e'
  simpa [AuditEvent.toJson, digestJson_injective.eq_iff] using h

theorem AuditRecord.toJson_injective : Function.Injective AuditRecord.toJson := by
  intro r r' h
  cases r
  cases r'
  simpa [AuditRecord.toJson, digestJson_injective.eq_iff, AuditEvent.toJson_injective.eq_iff]
    using h

theorem shapeItems_digest (bytes : List UInt8) :
    Value.shapeItems (bytes.map fun b => .posInt b.toNat) =
      List.replicate bytes.length (.posInt 0) := by
  induction bytes with
  | nil => rfl
  | cons b bytes ih => rw [List.map_cons, Value.shapeItems, ih]; rfl

theorem digestJson_shape (digest : Digest32) :
    (digestJson digest).shape = .array (List.replicate 32 (.posInt 0)) := by
  rw [digestJson, Value.shape, shapeItems_digest, Vector.length_toList]

theorem AuditEvent.shape_toJson (e e' : AuditEvent) : e.toJson.shape = e'.toJson.shape := by
  simp only [AuditEvent.toJson, Value.shape, Value.shapeMembers, digestJson_shape]

theorem AuditRecord.shape_toJson (r r' : AuditRecord) : r.toJson.shape = r'.toJson.shape := by
  have hevent := AuditEvent.shape_toJson r.event r'.event
  simp only [AuditRecord.toJson, Value.shape, Value.shapeMembers, digestJson_shape, hevent]

theorem jsonText_inj {v w : Value} : jsonText v = jsonText w ↔ v.encode = w.encode := by
  rw [jsonText, jsonText, String.ofList_inj]

/-- No two events have the same text. -/
theorem AuditEvent.jsonText_injective :
    Function.Injective fun e : AuditEvent => jsonText e.toJson := by
  intro e e' h
  have htext : e.toJson.encode ++ [] = e'.toJson.encode ++ [] := by
    rw [jsonText_inj.mp h]
  have hmembers := (Value.encode_object_append_inj (AuditEvent.shape_toJson e e') htext).1
  exact AuditEvent.toJson_injective (congrArg Value.object hmembers)

/-- What begins with the text of a record is of that record only. -/
theorem AuditRecord.encode_append_inj {r r' : AuditRecord} {rest rest' : List Char}
    (h : r.toJson.encode ++ rest = r'.toJson.encode ++ rest') : r = r' ∧ rest = rest' := by
  obtain ⟨hmembers, hrest⟩ :=
    Value.encode_object_append_inj (AuditRecord.shape_toJson r r') h
  exact ⟨AuditRecord.toJson_injective (congrArg Value.object hmembers), hrest⟩

theorem AuditRecord.jsonText_injective :
    Function.Injective fun r : AuditRecord => jsonText r.toJson := by
  intro r r' h
  have htext : r.toJson.encode ++ [] = r'.toJson.encode ++ [] := by
    rw [jsonText_inj.mp h]
  exact (AuditRecord.encode_append_inj htext).1

/-- The reader that searches for the value with a given text. -/
noncomputable def LedgerReader.searching : LedgerReader where
  event := Function.partialInv fun e : AuditEvent => jsonText e.toJson
  record := Function.partialInv fun r : AuditRecord => jsonText r.toJson

theorem LedgerReader.searching_correct : LedgerReader.searching.Correct where
  event e _ := Function.partialInv_left AuditEvent.jsonText_injective e
  record r _ := Function.partialInv_left AuditRecord.jsonText_injective r
  cutOff r text missing hmissing htext := by
    rw [Option.eq_none_iff_forall_ne_some]
    intro r' hr'
    have hread : jsonText r'.toJson = String.ofList text :=
      (AuditRecord.jsonText_injective.isPartialInv r' (String.ofList text)).mp hr'
    -- a complete text would go on
    have hencode : r'.toJson.encode = text := String.ofList_injective hread
    have hwhole : r'.toJson.encode ++ missing = r.toJson.encode ++ [] := by
      rw [hencode, htext, List.append_nil]
    exact hmissing (AuditRecord.encode_append_inj hwhole).2

end VorCommander
