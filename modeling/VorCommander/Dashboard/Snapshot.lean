import VorCommander.Auth.Tenants

/-!
The snapshots that the dashboard is given.

What can be observed carries where it comes from: from the backend at a known
time, from nowhere, or from a preview. A snapshot is checked before it is used:
its identifiers, where its values come from, and the counts of its summary.
-/

namespace VorCommander

open Steps Text

/-! ### Observed values -/

inductive SnapshotMode
  | live
  | simulated
  deriving DecidableEq

inductive Provenance
  | live
  | unknown
  | simulated
  deriving DecidableEq

inductive UnknownReason
  | notReported
  | notImplemented
  | unavailable
  deriving DecidableEq

/-- A value with its provenance. -/
inductive Observed (α : Type)
  | live (value : α) (observedAtUnixMs : ℕ)
  | unknown (reason : UnknownReason)
  | simulated (value : α)
  deriving DecidableEq

namespace Observed

variable {α : Type}

def provenance : Observed α → Provenance
  | .live _ _ => .live
  | .unknown _ => .unknown
  | .simulated _ => .simulated

/-- The value when it is known. -/
def known : Observed α → Option α
  | .live value _ => some value
  | .unknown _ => none
  | .simulated value => some value

def observedAt : Observed α → Option ℕ
  | .live _ observedAtUnixMs => some observedAtUnixMs
  | _ => none

@[simp] theorem known_live (value : α) (now : ℕ) : (live value now).known = some value := rfl

@[simp] theorem known_unknown (reason : UnknownReason) :
    (unknown reason : Observed α).known = none := rfl

end Observed

/-! ### Snapshots -/

inductive ViewerRole
  | viewer
  | operator
  | admin
  deriving DecidableEq

/-- `ViewerRole::from`. -/
def TenantRole.viewerRole : TenantRole → ViewerRole
  | .viewer => .viewer
  | .operator => .operator
  | .admin => .admin

inductive DeviceStatus
  | connected
  | notConnected
  | revoked
  deriving DecidableEq

structure OrganizationView where
  organizationId : String
  name : Observed String
  viewerRole : Observed ViewerRole
  deriving DecidableEq

structure SummaryView where
  totalDevices : Observed ℕ
  connectedDevices : Observed ℕ
  revokedDevices : Observed ℕ
  deriving DecidableEq

structure DeviceView where
  deviceId : String
  workspaceIds : List String
  status : Observed DeviceStatus
  displayName : Observed String
  os : Observed String
  agentVersion : Observed String
  capabilities : Observed (List String)
  lastSeenUnixMs : Observed ℕ
  deriving DecidableEq

structure SubscriptionView where
  plan : String
  active : Bool
  deriving DecidableEq

structure UsageEntry where
  workspaceId : Option String
  usageKey : String
  units : ℕ
  deriving DecidableEq

structure DashboardSnapshot where
  schemaVersion : ℕ
  mode : SnapshotMode
  generatedAtUnixMs : ℕ
  organization : OrganizationView
  summary : SummaryView
  devices : List DeviceView
  subscription : Observed SubscriptionView
  usage : Observed (List UsageEntry)
  deriving DecidableEq

/-- `SNAPSHOT_SCHEMA_VERSION`. -/
def snapshotSchemaVersion : ℕ := 1

inductive ContractError
  | unsupportedVersion (version : ℕ)
  | missingOrganization
  | blankDeviceId
  | blankWorkspaceId (field : String)
  | duplicateDevice
  | duplicateWorkspace (field : String)
  | blankUsageKey
  | blankPlan
  | mixedProvenance (mode : SnapshotMode) (provenance : Provenance) (field : String)
  | observedInFuture (field : String)
  | inconsistentCount (name : String)
  | crossTenantRecord
  | tooManyDevices
  deriving DecidableEq

/-- The path of a device. -/
def devicePath (index : ℕ) : String := "devices[" ++ String.ofList (encodeNat index) ++ "]"

namespace DashboardSnapshot

/-! ### Identifiers -/

/-- The check of the workspaces of a device, with those that have been seen. -/
def validateWorkspaceIds (field : String) (seen : List String) :
    List String → Except ContractError Unit
  | [] => .ok ()
  | workspaceId :: rest => do
      failIf (isBlank workspaceId = true) (.blankWorkspaceId field)
      failIf (workspaceId ∈ seen) (.duplicateWorkspace field)
      validateWorkspaceIds field (workspaceId :: seen) rest

/-- The check of the devices from an index on, with those that have been seen. -/
def validateDevices (index : ℕ) (seen : List String) : List DeviceView → Except ContractError Unit
  | [] => .ok ()
  | device :: rest => do
      failIf (isBlank device.deviceId = true) .blankDeviceId
      failIf (device.deviceId ∈ seen) .duplicateDevice
      validateWorkspaceIds (devicePath index ++ ".workspace_ids") [] device.workspaceIds
      validateDevices (index + 1) (device.deviceId :: seen) rest

def validateUsageEntry (entry : UsageEntry) : Except ContractError Unit := do
  failIf (isBlank entry.usageKey = true) .blankUsageKey
  failIf (∃ workspaceId ∈ entry.workspaceId, isBlank workspaceId = true) (.blankWorkspaceId "usage")

variable (snapshot : DashboardSnapshot)

def validateIdentifiers : Except ContractError Unit := do
  validateDevices 0 [] snapshot.devices
  (snapshot.usage.known.getD []).forM validateUsageEntry
  failIf (∃ subscription ∈ snapshot.subscription.known, isBlank subscription.plan = true) .blankPlan

/-! ### Provenance -/

/-- A field as it is visited: its path, where its value comes from, and since
when it is known. -/
structure VisitedField where
  path : String
  provenance : Provenance
  observedAt : Option ℕ

def visit {α : Type} (path : String) (value : Observed α) : VisitedField :=
  ⟨path, value.provenance, value.observedAt⟩

/-- The fields of a device that are visited. -/
def visitDevice (index : ℕ) (device : DeviceView) : List VisitedField :=
  [visit (devicePath index ++ ".status") device.status,
   visit (devicePath index ++ ".display_name") device.displayName,
   visit (devicePath index ++ ".os") device.os,
   visit (devicePath index ++ ".agent_version") device.agentVersion,
   visit (devicePath index ++ ".capabilities") device.capabilities,
   visit (devicePath index ++ ".last_seen_unix_ms") device.lastSeenUnixMs]

/-- `visit_fields`. -/
def visitFields : List VisitedField :=
  [visit "organization.name" snapshot.organization.name,
   visit "organization.viewer_role" snapshot.organization.viewerRole,
   visit "summary.total_devices" snapshot.summary.totalDevices,
   visit "summary.connected_devices" snapshot.summary.connectedDevices,
   visit "summary.revoked_devices" snapshot.summary.revokedDevices] ++
    (snapshot.devices.zipIdx.flatMap fun entry => visitDevice entry.2 entry.1) ++
      [visit "subscription" snapshot.subscription, visit "usage" snapshot.usage]

/-- The provenance that a mode excludes. -/
def forbidden : SnapshotMode → Provenance
  | .live => .simulated
  | .simulated => .live

/-- The first field that is not as it should be is the one that is reported. -/
def validateProvenance : Except ContractError Unit :=
  snapshot.visitFields.forM fun field => do
    failIf (field.provenance = forbidden snapshot.mode)
      (.mixedProvenance snapshot.mode field.provenance field.path)
    failIf (∃ time ∈ field.observedAt, snapshot.generatedAtUnixMs < time)
      (.observedInFuture field.path)

/-! ### Summary -/

def statuses : List (Option DeviceStatus) := snapshot.devices.map (·.status.known)

/-- The check of one count against the devices of its status. -/
def validateCount (name : String) (count : Option ℕ) (status : DeviceStatus) :
    Except ContractError Unit :=
  match count with
  | none => .ok ()
  | some count =>
      let matching := snapshot.statuses.count (some status)
      let consistent : Bool :=
        if snapshot.statuses.all Option.isSome then count = matching
        else matching ≤ count && count ≤ matching + snapshot.statuses.count none
      failIf (snapshot.devices.length < count ∨ consistent = false) (.inconsistentCount name)

def validateSummary : Except ContractError Unit := do
  failIf (2 ^ 32 ≤ snapshot.devices.length) .tooManyDevices
  failIf (∃ total ∈ snapshot.summary.totalDevices.known, total ≠ snapshot.devices.length)
    (.inconsistentCount "total_devices")
  snapshot.validateCount "connected_devices" snapshot.summary.connectedDevices.known .connected
  snapshot.validateCount "revoked_devices" snapshot.summary.revokedDevices.known .revoked
  failIf (∃ connected ∈ snapshot.summary.connectedDevices.known,
      ∃ revoked ∈ snapshot.summary.revokedDevices.known,
        snapshot.devices.length < connected + revoked)
    (.inconsistentCount "connected_devices + revoked_devices")

/-- `DashboardSnapshot::validate`. -/
def validate : Except ContractError Unit := do
  failIf (snapshot.schemaVersion ≠ snapshotSchemaVersion)
    (.unsupportedVersion snapshot.schemaVersion)
  failIf (isBlank snapshot.organization.organizationId = true) .missingOrganization
  snapshot.validateIdentifiers
  snapshot.validateProvenance
  snapshot.validateSummary

/-! ### What is accepted -/

theorem validateWorkspaceIds_eq_ok_iff {field : String} {seen workspaceIds : List String} :
    validateWorkspaceIds field seen workspaceIds = .ok () ↔
      (∀ workspaceId ∈ workspaceIds, isBlank workspaceId = false ∧ workspaceId ∉ seen) ∧
        workspaceIds.Nodup := by
  induction workspaceIds generalizing seen with
  | nil => simp [validateWorkspaceIds]
  | cons workspaceId rest ih =>
      rw [List.forall_mem_cons]
      simp only [validateWorkspaceIds, bind_eq_ok, exists_unit, failIf_eq_ok, ih,
        Bool.not_eq_true, List.nodup_cons, List.mem_cons, not_or]
      constructor
      · rintro ⟨hblank, hseen, hrest, hnodup⟩
        exact ⟨⟨⟨hblank, hseen⟩, fun id hid => ⟨(hrest id hid).1, (hrest id hid).2.2⟩⟩,
          fun hmem => (hrest workspaceId hmem).2.1 rfl, hnodup⟩
      · rintro ⟨⟨⟨hblank, hseen⟩, hrest⟩, hmem, hnodup⟩
        refine ⟨hblank, hseen, fun id hid => ⟨(hrest id hid).1, ?_, (hrest id hid).2⟩, hnodup⟩
        rintro rfl
        exact hmem hid

/-- The identifiers of a device. -/
structure Identified (device : DeviceView) : Prop where
  deviceId : isBlank device.deviceId = false
  workspaceIds : ∀ workspaceId ∈ device.workspaceIds, isBlank workspaceId = false
  nodup : device.workspaceIds.Nodup

theorem validateDevices_eq_ok_iff {index : ℕ} {seen : List String} {devices : List DeviceView} :
    validateDevices index seen devices = .ok () ↔
      (∀ device ∈ devices, Identified device ∧ device.deviceId ∉ seen) ∧
        (devices.map (·.deviceId)).Nodup := by
  induction devices generalizing index seen with
  | nil => simp [validateDevices]
  | cons device rest ih =>
      rw [List.forall_mem_cons]
      simp only [validateDevices, bind_eq_ok, exists_unit, failIf_eq_ok, ih,
        validateWorkspaceIds_eq_ok_iff, Bool.not_eq_true, List.map_cons, List.nodup_cons,
        List.mem_cons, not_or, List.mem_map, not_exists, not_and, List.not_mem_nil,
        not_false_eq_true, and_true]
      constructor
      · rintro ⟨hblank, hseen, ⟨hworkspaces, hnodup⟩, hrest, hids⟩
        exact ⟨⟨⟨⟨hblank, hworkspaces, hnodup⟩, hseen⟩,
          fun other hother => ⟨(hrest other hother).1, (hrest other hother).2.2⟩⟩,
          fun other hother => (hrest other hother).2.1, hids⟩
      · rintro ⟨⟨⟨hdevice, hseen⟩, hrest⟩, hne, hids⟩
        exact ⟨hdevice.deviceId, hseen, ⟨hdevice.workspaceIds, hdevice.nodup⟩,
          fun other hother => ⟨(hrest other hother).1, hne other hother, (hrest other hother).2⟩,
          hids⟩

variable {snapshot}

theorem validateIdentifiers_eq_ok_iff :
    snapshot.validateIdentifiers = .ok () ↔
      (∀ device ∈ snapshot.devices, Identified device) ∧
      (snapshot.devices.map (·.deviceId)).Nodup ∧
      (∀ entries ∈ snapshot.usage.known, ∀ entry ∈ entries, isBlank entry.usageKey = false ∧
        ∀ workspaceId ∈ entry.workspaceId, isBlank workspaceId = false) ∧
      ∀ subscription ∈ snapshot.subscription.known, isBlank subscription.plan = false := by
  have husage : (∀ entry ∈ snapshot.usage.known.getD [], validateUsageEntry entry = .ok ()) ↔
      ∀ entries ∈ snapshot.usage.known, ∀ entry ∈ entries, isBlank entry.usageKey = false ∧
        ∀ workspaceId ∈ entry.workspaceId, isBlank workspaceId = false := by
    cases snapshot.usage.known <;> simp [validateUsageEntry]
  simp only [validateIdentifiers, bind_eq_ok, exists_unit, failIf_eq_ok,
    validateDevices_eq_ok_iff, forM_eq_ok, husage]
  simp [and_assoc]

theorem validateProvenance_eq_ok_iff :
    snapshot.validateProvenance = .ok () ↔ ∀ field ∈ snapshot.visitFields,
      field.provenance ≠ forbidden snapshot.mode ∧
        ∀ time ∈ field.observedAt, time ≤ snapshot.generatedAtUnixMs := by
  simp only [validateProvenance, forM_eq_ok, bind_eq_ok, exists_unit, failIf_eq_ok]
  simp

theorem validate_eq_ok_iff :
    snapshot.validate = .ok () ↔ snapshot.schemaVersion = snapshotSchemaVersion ∧
      isBlank snapshot.organization.organizationId = false ∧
      snapshot.validateIdentifiers = .ok () ∧ snapshot.validateProvenance = .ok () ∧
      snapshot.validateSummary = .ok () := by
  simp [validate]

end DashboardSnapshot

end VorCommander
