import VorCommander.Protocol
import VorCommander.Text.Reader
import VorCommander.Text.Sorted
import Mathlib.Data.List.Lex
import Mathlib.Data.Prod.Lex

/-!
What the digest of an envelope binds.

The digest is taken over the canonical form of an envelope. Two envelopes have the
same digest if and only if they ask for the same thing: all their fields agree, and
so do their capabilities, up to their order and up to the order and the repetition of
the constraints of each.
-/

namespace VorCommander

open Crypto Text

/-! ### Capabilities -/

namespace Capability

/-- Capabilities of the same name with the same constraints. -/
structure Same (a b : Capability) : Prop where
  name : a.name = b.name
  constraints : ∀ constraint, constraint ∈ a.constraints ↔ constraint ∈ b.constraints

theorem normalized_eq (cap : Capability) :
    cap.normalized = { cap with constraints := sortedSet cap.constraints } := rfl

theorem normalized_eq_iff {a b : Capability} : a.normalized = b.normalized ↔ a.Same b := by
  rw [normalized_eq, normalized_eq, Capability.mk.injEq, sortedSet_eq_iff]
  exact ⟨fun ⟨hname, hconstraints⟩ => ⟨hname, hconstraints⟩, fun h => ⟨h.name, h.constraints⟩⟩

theorem normalized_normalized (cap : Capability) : cap.normalized.normalized = cap.normalized := by
  rw [normalized_eq cap, normalized_eq, sortedSet_sortedSet]

/-- The order of capabilities is that of their names and constraints, taken together. -/
theorem le_iff {a b : Capability} :
    a.le b ↔ toLex (a.name, a.constraints) ≤ toLex (b.name, b.constraints) := by
  rw [Prod.Lex.toLex_le_toLex]
  rfl

instance : Std.Total Capability.le where
  total a b := by
    rw [le_iff, le_iff]
    exact le_total _ _

instance : IsTrans Capability Capability.le where
  trans a b c hab hbc := by
    rw [le_iff] at *
    exact le_trans hab hbc

instance : Std.Antisymm Capability.le where
  antisymm a b hab hba := by
    rw [le_iff] at hab hba
    have hsame := le_antisymm hab hba
    cases a
    cases b
    simpa using hsame

theorem toJson_injective : Function.Injective Capability.toJson := by
  intro a b h
  simp only [toJson, Value.object.injEq, List.cons.injEq, Prod.mk.injEq, Value.string.injEq,
    Value.array.injEq, true_and, and_true] at h
  obtain ⟨hname, hconstraints⟩ := h
  have hstring : Function.Injective Value.string := fun _ _ h => Value.string.inj h
  cases a
  cases b
  simpa using And.intro hname (hstring.list_map hconstraints)

end Capability

/-! ### Envelopes -/

namespace ActionEnvelope

/-- The values of the parameters are as they are written: a number that is not an
integer is kept as the text of one. -/
def Written (envelope : ActionEnvelope) : Prop :=
  ∀ (name : String) (value : Value), envelope.parameters[name]? = some value → value.Written

/-- Envelopes that agree up to the order of their capabilities, and up to the order and
the repetition of the constraints of each. -/
structure Same (r s : ActionEnvelope) : Prop where
  requestId : r.requestId = s.requestId
  organizationId : r.organizationId = s.organizationId
  actorId : r.actorId = s.actorId
  deviceId : r.deviceId = s.deviceId
  action : r.action = s.action
  target : r.target = s.target
  parameters : r.parameters = s.parameters
  capabilities : ∃ order, r.requestedCapabilities.Perm order ∧
    List.Forall₂ Capability.Same order s.requestedCapabilities
  expiresAtUnixMs : r.expiresAtUnixMs = s.expiresAtUnixMs
  nonce : r.nonce = s.nonce

theorem normalized_normalized (envelope : ActionEnvelope) :
    envelope.normalized.normalized = envelope.normalized := by
  have hcapabilities : ∀ cap ∈ envelope.normalized.requestedCapabilities,
      cap.normalized = cap := by
    intro cap hcap
    rw [normalized, List.mem_insertionSort, List.mem_map] at hcap
    obtain ⟨cap, -, rfl⟩ := hcap
    exact cap.normalized_normalized
  have hsorted : envelope.normalized.requestedCapabilities.Pairwise Capability.le :=
    List.pairwise_insertionSort _ _
  rw [normalized, List.map_congr_left hcapabilities, List.map_id', hsorted.insertionSort_eq]

/-- Two envelopes have one canonical form if and only if they ask for the same. -/
theorem normalized_eq_iff {r s : ActionEnvelope} : r.normalized = s.normalized ↔ r.Same s := by
  have hcapabilities : r.normalized.requestedCapabilities = s.normalized.requestedCapabilities ↔
      ∃ order, r.requestedCapabilities.Perm order ∧
        List.Forall₂ Capability.Same order s.requestedCapabilities := by
    simp only [normalized, insertionSort_eq_iff, map_perm_map_iff, Capability.normalized_eq_iff]
  constructor
  · intro h
    have hcaps := hcapabilities.mp (congrArg requestedCapabilities h)
    simp only [normalized, ActionEnvelope.mk.injEq] at h
    obtain ⟨h₁, h₂, h₃, h₄, h₅, h₆, h₇, -, h₈, h₉⟩ := h
    exact ⟨h₁, h₂, h₃, h₄, h₅, h₆, h₇, hcaps, h₈, h₉⟩
  · intro h
    have hcaps := hcapabilities.mpr h.capabilities
    simp only [normalized] at hcaps
    simp only [normalized, ActionEnvelope.mk.injEq]
    exact ⟨h.requestId, h.organizationId, h.actorId, h.deviceId, h.action, h.target, h.parameters,
      hcaps, h.expiresAtUnixMs, h.nonce⟩

theorem toJson_injective : Function.Injective ActionEnvelope.toJson := by
  intro r s h
  simp only [toJson, Value.object.injEq, List.cons.injEq, Prod.mk.injEq, Value.string.injEq,
    Value.array.injEq, Value.posInt.injEq, true_and, and_true] at h
  obtain ⟨h₁, h₂, h₃, h₄, h₅, h₆, hparameters, hcapabilities, h₈, hnonce⟩ := h
  have hbyte : Function.Injective fun b : UInt8 => Value.posInt b.toNat := by
    intro b c hbc
    exact UInt8.toNat_inj.mp (Value.posInt.inj hbc)
  have hparameters : r.parameters = s.parameters :=
    Std.ExtTreeMap.ext_toList (hparameters ▸ List.Perm.refl _)
  have hcapabilities := Capability.toJson_injective.list_map hcapabilities
  have hnonce := hbyte.list_map hnonce
  cases r
  cases s
  simp_all

theorem written_toJson {envelope : ActionEnvelope} (h : envelope.Written) :
    envelope.normalized.toJson.Written := by
  have hparameters : Value.WrittenMembers envelope.parameters.toList := by
    rw [Value.writtenMembers_iff]
    intro m hm
    exact h m.1 m.2 (Std.ExtTreeMap.mem_toList_iff_getElem?_eq_some.mp hm)
  have hcapabilities : ∀ caps : List Capability,
      Value.WrittenItems (caps.map Capability.toJson) := by
    intro caps
    rw [Value.writtenItems_iff]
    intro item hitem
    obtain ⟨cap, -, rfl⟩ := List.mem_map.mp hitem
    have hconstraints : Value.WrittenItems (cap.constraints.map .string) := by
      rw [Value.writtenItems_iff]
      intro item hitem
      obtain ⟨constraint, -, rfl⟩ := List.mem_map.mp hitem
      trivial
    exact ⟨trivial, hconstraints, trivial⟩
  have hnonce : Value.WrittenItems (envelope.nonce.map fun b => .posInt b.toNat) := by
    rw [Value.writtenItems_iff]
    intro item hitem
    obtain ⟨b, -, rfl⟩ := List.mem_map.mp hitem
    trivial
  exact ⟨trivial, trivial, trivial, trivial, trivial, trivial, hparameters, hcapabilities _,
    trivial, hnonce, trivial⟩

/-- Two envelopes have one digest if and only if they ask for the same, and the
canonical form is its own canonical form. -/
theorem digest_eq_iff (P : Primitives) (r s : ActionEnvelope) (hr : r.Written) (hs : s.Written)
    (hP : P.sha256 r.normalized.toJson.toBytes = P.sha256 s.normalized.toJson.toBytes →
      r.normalized.toJson.toBytes = s.normalized.toJson.toBytes) :
    (r.digest P = s.digest P ↔ r.Same s) ∧ r.normalized.normalized = r.normalized := by
  refine ⟨?_, r.normalized_normalized⟩
  rw [← normalized_eq_iff, digest, digest]
  constructor
  · intro h
    apply toJson_injective
    exact Value.eq_of_toBytes (written_toJson hr) (written_toJson hs) (hP h)
  · intro h
    rw [h]

end ActionEnvelope

/-! ### Two requests -/

namespace Sample

/-- Two capabilities, with constraints that are repeated. -/
def readFiles : Capability := { name := "fs.read", constraints := ["b", "a", "b"] }

def listFiles : Capability := { name := "fs.list", constraints := [] }

def asksFor (capabilities : List Capability) : ActionEnvelope :=
  { requestId := "request", organizationId := "local", actorId := "agent", deviceId := "device"
    action := "fs.read", target := "file", parameters := ∅, requestedCapabilities := capabilities
    expiresAtUnixMs := 1000, nonce := List.replicate 16 7 }

end Sample

open Sample ActionEnvelope in
theorem ActionEnvelope.digest_eq_iff_asksFor :
    ((asksFor [readFiles, listFiles]).digest reference
        = (asksFor [listFiles, readFiles.normalized]).digest reference ↔
      (asksFor [readFiles, listFiles]).Same (asksFor [listFiles, readFiles.normalized])) ∧
    (asksFor [readFiles, listFiles]).normalized.normalized
      = (asksFor [readFiles, listFiles]).normalized := by
  have hempty : ∀ capabilities, (asksFor capabilities).Written := by
    intro capabilities name value h
    simp [asksFor] at h
  refine digest_eq_iff reference _ _ (hempty _) (hempty _) fun _ => ?_
  have hsame : (asksFor [readFiles, listFiles]).normalized
      = (asksFor [listFiles, readFiles.normalized]).normalized := by
    rfl
  rw [hsame]

end VorCommander
