import VorCommander.Auth.Isolation

/-!
Who may use a device.

`verify_context` looks four records up by their keys. `Entitled` says the same without
keys: there are records of the organisation for the actor, for the device and for the
workspace. In a state that is accepted a record has the key of its own names, so that the
two agree.
-/

namespace VorCommander

open Steps Text

section Lookup

variable {α : Type} {map : Std.ExtTreeMap String α} {organization resource : α → String}
  {P : α → Prop} {organizationId resourceId : String}

end Lookup

namespace TenantPersistedState.Valid

variable {state : TenantPersistedState} {key : String}

end TenantPersistedState.Valid

namespace TenantStore

variable {state : TenantPersistedState} {grant : GrantRecord} {organizationId deviceId : String}
  {workspaceId : Option String} {requiredRole : TenantRole}

end TenantStore

/-- A call writes an accepted state. -/
theorem TenantStoreCall.onState_valid {call : TenantStoreCall} {state state' : TenantPersistedState}
    (hstate : state.Valid) (h : call.onState state = .ok state') : state'.Valid := by
  obtain ⟨organizationId, hother⟩ : ∃ organizationId, some organizationId ≠ call.organization := by
    by_cases hempty : call.organization = some ""
    · exact ⟨"a", by simp [hempty]⟩
    · exact ⟨"", fun heq => hempty heq.symm⟩
  rw [← validateTenantState_eq_ok_iff, (onState_sameFor hother h).accepted,
    validateTenantState_eq_ok_iff]
  exact hstate


end VorCommander
