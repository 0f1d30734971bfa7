import Mathlib.Data.Finset.Sort
import VorCommander.Auth.TenantState
import VorCommander.Dashboard.Summary

/-!
The snapshot of an organisation.

The records of one organisation in the store of tenants are projected into a live
snapshot, together with the devices that have a link to the gateway. The snapshot
that is made is checked like any other. What the store holds passes this check, so
nothing but a blank plan or a number that is too large is refused.
-/

namespace VorCommander

open Steps Text

structure SubscriptionRecord where
  organizationId : String
  plan : String
  active : Bool
  deriving DecidableEq

/-- A device with its organisation. -/
structure DeviceKey where
  organizationId : String
  deviceId : String
  deriving DecidableEq

/-- The state of one organisation, and the links to the gateway, of any
organisation. -/
structure TenantProjectionInput where
  organization : OrganizationRecord
  viewerRole : TenantRole
  devices : List TenantDeviceRecord
  connectedDevices : Finset DeviceKey
  subscription : Option SubscriptionRecord
  usage : Option (List UsageRecord)
  nowUnixMs : ℕ

namespace TenantProjectionInput

variable (input : TenantProjectionInput)

/-- A record of another organisation is among those that are projected. -/
def hasForeignRecord : Bool :=
  input.devices.any (·.organizationId ≠ input.organization.organizationId) ||
    input.subscription.any (·.organizationId ≠ input.organization.organizationId) ||
      input.usage.any fun usage => usage.any (·.organizationId ≠ input.organization.organizationId)

/-- The status of a device. A revoked one is revoked whatever its link. -/
def status (device : TenantDeviceRecord) : DeviceStatus :=
  if device.revoked then .revoked
  else if ⟨input.organization.organizationId, device.deviceId⟩ ∈ input.connectedDevices then
    .connected
  else .notConnected

def deviceView (device : TenantDeviceRecord) : DeviceView where
  deviceId := device.deviceId
  workspaceIds := device.workspaceIds.sort (· ≤ ·)
  status := .live (input.status device) input.nowUnixMs
  displayName := .unknown .notReported
  os := .unknown .notReported
  agentVersion := .unknown .notReported
  capabilities := .unknown .notReported
  lastSeenUnixMs := .unknown .notImplemented

/-- The devices of the snapshot, by their identifiers. -/
def deviceViews : List DeviceView :=
  (input.devices.map input.deviceView).insertionSort fun left right =>
    left.deviceId ≤ right.deviceId

/-- A count that has to fit in 32 bits. -/
def fitted (count : ℕ) : Except ContractError ℕ := do
  failIf (2 ^ 32 ≤ count) .tooManyDevices
  return count

/-- The number of devices of one status. -/
def countStatus (status : DeviceStatus) : Except ContractError ℕ :=
  fitted (input.deviceViews.filter fun device => device.status.known = some status).length

def subscriptionView : Observed SubscriptionView :=
  match input.subscription with
  | some record => .live ⟨record.plan, record.active⟩ input.nowUnixMs
  | none => .unknown .notReported

def usageView : Observed (List UsageEntry) :=
  match input.usage with
  | some rows =>
      .live (rows.map fun row => ⟨row.workspaceId, row.usageKey, row.units⟩) input.nowUnixMs
  | none => .unknown .notImplemented

/-- The snapshot with these counts. -/
def snapshot (total connected revoked : ℕ) : DashboardSnapshot where
  schemaVersion := snapshotSchemaVersion
  mode := .live
  generatedAtUnixMs := input.nowUnixMs
  organization :=
    { organizationId := input.organization.organizationId
      name := .live input.organization.name input.nowUnixMs
      viewerRole := .live input.viewerRole.viewerRole input.nowUnixMs }
  summary :=
    { totalDevices := .live total input.nowUnixMs
      connectedDevices := .live connected input.nowUnixMs
      revokedDevices := .live revoked input.nowUnixMs }
  devices := input.deviceViews
  subscription := input.subscriptionView
  usage := input.usageView

/-- `project_live_snapshot`. -/
def projectLiveSnapshot : Except ContractError DashboardSnapshot := do
  failIf (input.hasForeignRecord = true) .crossTenantRecord
  let total ← fitted input.deviceViews.length
  let connected ← input.countStatus .connected
  let revoked ← input.countStatus .revoked
  let snapshot := input.snapshot total connected revoked
  snapshot.validate
  return snapshot

/-! ### The devices of the snapshot -/

/-- The records that are projected belong to the organisation, and their identifiers
are none that a snapshot must not have. -/
structure Sound : Prop where
  organization : isBlank input.organization.organizationId = false
  devices : ∀ device ∈ input.devices, device.organizationId = input.organization.organizationId ∧
    isBlank device.deviceId = false ∧
      ∀ workspaceId ∈ device.workspaceIds, isBlank workspaceId = false
  deviceIds : (input.devices.map (·.deviceId)).Nodup
  subscription : ∀ record ∈ input.subscription,
    record.organizationId = input.organization.organizationId
  usage : ∀ rows ∈ input.usage, ∀ row ∈ rows,
    row.organizationId = input.organization.organizationId ∧ isBlank row.usageKey = false ∧
      ∀ workspaceId ∈ row.workspaceId, isBlank workspaceId = false

theorem deviceViews_perm : input.deviceViews.Perm (input.devices.map input.deviceView) :=
  List.perm_insertionSort _ _

variable {input}

@[simp] theorem length_deviceViews : input.deviceViews.length = input.devices.length := by
  rw [(deviceViews_perm input).length_eq, List.length_map]

/-- The devices of one status are those whose records have it. -/
theorem count_deviceViews (status : DeviceStatus) :
    (input.deviceViews.filter fun device => device.status.known = some status).length =
      input.devices.countP fun device => input.status device = status := by
  rw [← List.countP_eq_length_filter, (deviceViews_perm input).countP_eq, List.countP_map]
  refine List.countP_congr fun device _ => ?_
  simp [deviceView]

theorem nodup_deviceViews (h : input.Sound) : (input.deviceViews.map (·.deviceId)).Nodup := by
  have hperm := (deviceViews_perm input).map (·.deviceId)
  rw [hperm.nodup_iff, List.map_map]
  exact h.deviceIds

/-- Devices with different identifiers have one order. -/
theorem deviceViews_congr {input' : TenantProjectionInput} (h : input.Sound)
    (hperm : input'.devices.Perm input.devices)
    (hview : ∀ device ∈ input.devices, input'.deviceView device = input.deviceView device) :
    input'.deviceViews = input.deviceViews := by
  have hviews : (input'.devices.map input'.deviceView).Perm
      (input.devices.map input.deviceView) := by
    refine (hperm.map input'.deviceView).trans ?_
    rw [List.map_congr_left hview]
  have hsorted : input'.deviceViews.Perm input.deviceViews :=
    ((deviceViews_perm _).trans hviews).trans (deviceViews_perm _).symm
  refine hsorted.eq_of_pairwise (fun view view' hview hview' hle hge => ?_)
    (List.pairwise_insertionSort _ _) (List.pairwise_insertionSort _ _)
  exact List.inj_on_of_nodup_map (nodup_deviceViews h) (hsorted.mem_iff.mp hview) hview'
    (le_antisymm hle hge)

/-! ### The checks of the snapshot -/

theorem fitted_eq_ok_iff {count n : ℕ} : fitted count = .ok n ↔ count < 2 ^ 32 ∧ count = n := by
  simp [fitted]

/-- The number of records whose device has a status. -/
def counted (input : TenantProjectionInput) (status : DeviceStatus) : ℕ :=
  input.devices.countP fun device => input.status device = status

theorem counted_le (status : DeviceStatus) : input.counted status ≤ input.devices.length :=
  List.countP_le_length

theorem hasForeignRecord_eq_false (h : input.Sound) : input.hasForeignRecord = false := by
  have hdevices : input.devices.any
      (·.organizationId ≠ input.organization.organizationId) = false := by
    simpa using fun device hdevice => (h.devices device hdevice).1
  have hsubscription : input.subscription.any
      (·.organizationId ≠ input.organization.organizationId) = false := by
    cases hrecord : input.subscription with
    | none => rfl
    | some record => simpa using h.subscription record hrecord
  have husage : (input.usage.any fun usage =>
      usage.any (·.organizationId ≠ input.organization.organizationId)) = false := by
    cases hrows : input.usage with
    | none => rfl
    | some rows => simpa using fun row hrow => (h.usage rows hrows row hrow).1
  rw [hasForeignRecord, hdevices, hsubscription, husage]
  rfl

theorem projectLiveSnapshot_eq_ok_iff (h : input.Sound) {snapshot : DashboardSnapshot} :
    input.projectLiveSnapshot = .ok snapshot ↔ input.devices.length < 2 ^ 32 ∧
      (snapshot = input.snapshot input.devices.length (input.counted .connected)
        (input.counted .revoked) ∧ snapshot.validate = .ok ()) := by
  have hcount : ∀ status : DeviceStatus, input.countStatus status = fitted (input.counted status) :=
    fun status => by rw [countStatus, count_deviceViews, counted]
  simp only [projectLiveSnapshot, bind_eq_ok, exists_unit, failIf_eq_ok, hcount, fitted_eq_ok_iff,
    length_deviceViews, hasForeignRecord_eq_false h, pure_eq_ok]
  constructor
  · rintro ⟨-, _, ⟨hfits, rfl⟩, _, ⟨-, rfl⟩, _, ⟨-, rfl⟩, hvalid, rfl⟩
    exact ⟨hfits, rfl, hvalid⟩
  · rintro ⟨hfits, rfl, hvalid⟩
    have hle : ∀ status, input.counted status < 2 ^ 32 := fun status =>
      (counted_le status).trans_lt hfits
    exact ⟨Bool.false_ne_true, _, ⟨hfits, rfl⟩, _, ⟨hle _, rfl⟩, _, ⟨hle _, rfl⟩, hvalid, rfl⟩

/-- A device that is projected has a record. -/
theorem exists_of_mem_deviceViews {view : DeviceView} (hview : view ∈ input.deviceViews) :
    ∃ device ∈ input.devices, view = input.deviceView device := by
  obtain ⟨device, hdevice, rfl⟩ := List.mem_map.mp ((deviceViews_perm input).mem_iff.mp hview)
  exact ⟨device, hdevice, rfl⟩

variable {total connected revoked : ℕ}

theorem validateIdentifiers_snapshot (h : input.Sound) :
    (input.snapshot total connected revoked).validateIdentifiers = .ok () ↔
      ∀ record ∈ input.subscription, isBlank record.plan = false := by
  have hdevices : ∀ view ∈ input.deviceViews, DashboardSnapshot.Identified view := by
    intro view hview
    obtain ⟨device, hdevice, rfl⟩ := exists_of_mem_deviceViews hview
    obtain ⟨-, hid, hworkspaces⟩ := h.devices device hdevice
    refine ⟨hid, fun workspaceId hmem => hworkspaces workspaceId ?_, Finset.sort_nodup _ _⟩
    exact (Finset.mem_sort _).mp hmem
  have husage : ∀ entries ∈ input.usageView.known, ∀ entry ∈ entries,
      isBlank entry.usageKey = false ∧
        ∀ workspaceId ∈ entry.workspaceId, isBlank workspaceId = false := by
    intro entries hentries entry hentry
    cases hrows : input.usage with
    | none => simp [usageView, hrows] at hentries
    | some rows =>
        obtain rfl : rows.map _ = entries := by simpa [usageView, hrows] using hentries
        obtain ⟨row, hrow, rfl⟩ := List.mem_map.mp hentry
        exact (h.usage rows hrows row hrow).2
  have hplan : (∀ subscription ∈ input.subscriptionView.known, isBlank subscription.plan = false) ↔
      ∀ record ∈ input.subscription, isBlank record.plan = false := by
    cases hrecord : input.subscription <;> simp [subscriptionView, hrecord]
  rw [DashboardSnapshot.validateIdentifiers_eq_ok_iff, ← hplan]
  exact ⟨fun hvalid => hvalid.2.2.2, fun hplan => ⟨hdevices, nodup_deviceViews h, husage, hplan⟩⟩

/-- Every value is observed now, or is not known. -/
theorem validateProvenance_snapshot :
    (input.snapshot total connected revoked).validateProvenance = .ok () := by
  rw [DashboardSnapshot.validateProvenance_eq_ok_iff]
  intro field hfield
  have hlive : ∀ {α : Type} (path : String) (value : α),
      DashboardSnapshot.visit path (.live value input.nowUnixMs) = field →
        field.provenance ≠ .simulated ∧ ∀ time ∈ field.observedAt, time ≤ input.nowUnixMs := by
    rintro α path value rfl
    simp [DashboardSnapshot.visit, Observed.provenance, Observed.observedAt]
  have hunknown : ∀ {α : Type} (path : String) (reason : UnknownReason),
      DashboardSnapshot.visit path (.unknown reason : Observed α) = field →
        field.provenance ≠ .simulated ∧ ∀ time ∈ field.observedAt, time ≤ input.nowUnixMs := by
    rintro α path reason rfl
    simp [DashboardSnapshot.visit, Observed.provenance, Observed.observedAt]
  have hdevice : ∀ index (device : TenantDeviceRecord),
      field ∈ DashboardSnapshot.visitDevice index (input.deviceView device) →
        field.provenance ≠ .simulated ∧ ∀ time ∈ field.observedAt, time ≤ input.nowUnixMs := by
    intro index device hmem
    simp only [DashboardSnapshot.visitDevice, List.mem_cons, List.not_mem_nil, or_false] at hmem
    rcases hmem with h | h | h | h | h | h
    · exact hlive _ _ h.symm
    all_goals exact hunknown _ _ h.symm
  have hsubscription : field = DashboardSnapshot.visit "subscription" input.subscriptionView →
      field.provenance ≠ .simulated ∧ ∀ time ∈ field.observedAt, time ≤ input.nowUnixMs := by
    intro hmem
    cases hrecord : input.subscription with
    | none => exact hunknown _ _ (by rw [hmem, subscriptionView, hrecord])
    | some record => exact hlive _ _ (by rw [hmem, subscriptionView, hrecord])
  have husage : field = DashboardSnapshot.visit "usage" input.usageView →
      field.provenance ≠ .simulated ∧ ∀ time ∈ field.observedAt, time ≤ input.nowUnixMs := by
    intro hmem
    cases hrows : input.usage with
    | none => exact hunknown _ _ (by rw [hmem, usageView, hrows])
    | some rows => exact hlive _ _ (by rw [hmem, usageView, hrows])
  simp only [DashboardSnapshot.visitFields, List.mem_append, List.mem_cons, List.not_mem_nil,
    or_false, List.mem_flatMap] at hfield
  rcases hfield with ((h | h | h | h | h) | ⟨entry, hentry, hmem⟩) | (h | h)
  · exact hlive _ _ h.symm
  · exact hlive _ _ h.symm
  · exact hlive _ _ h.symm
  · exact hlive _ _ h.symm
  · exact hlive _ _ h.symm
  · obtain ⟨device, -, hview⟩ := exists_of_mem_deviceViews (List.fst_mem_of_mem_zipIdx hentry)
    rw [hview] at hmem
    exact hdevice _ _ hmem
  · exact hsubscription h
  · exact husage h

theorem statuses_snapshot :
    (input.snapshot total connected revoked).statuses.Perm
      (input.devices.map fun device => some (input.status device)) := by
  have hperm := (deviceViews_perm input).map fun view => view.status.known
  rw [List.map_map] at hperm
  exact hperm

/-- The counts are those of the devices. -/
theorem validateSummary_snapshot (hfits : input.devices.length < 2 ^ 32) :
    (input.snapshot input.devices.length (input.counted .connected)
      (input.counted .revoked)).validateSummary = .ok () := by
  have hcount : ∀ status : DeviceStatus, (input.snapshot input.devices.length
      (input.counted .connected) (input.counted .revoked)).statuses.count (some status) =
        input.counted status := by
    intro status
    rw [statuses_snapshot.count_eq, List.count, List.countP_map, counted]
    refine List.countP_congr fun device _ => ?_
    simp
  have hnone : (input.snapshot input.devices.length (input.counted .connected)
      (input.counted .revoked)).statuses.count none = 0 := by
    rw [statuses_snapshot.count_eq, List.count_eq_zero]
    simp
  have hsum := (input.snapshot input.devices.length (input.counted .connected)
    (input.counted .revoked)).count_statuses
  rw [hcount, hcount, hcount, hnone] at hsum
  have hlength : (input.snapshot input.devices.length (input.counted .connected)
      (input.counted .revoked)).devices.length = input.devices.length := length_deviceViews
  rw [DashboardSnapshot.summary_accepted_iff, hcount, hcount, hnone, hlength]
  rw [hlength] at hsum
  refine ⟨hfits, fun n hn => ?_, fun n hn => ?_, fun n hn => ?_, fun m hm n hn => ?_⟩
  · exact (Option.some.inj hn).symm
  · obtain rfl := Option.some.inj hn
    omega
  · obtain rfl := Option.some.inj hn
    omega
  · obtain rfl := Option.some.inj hm
    obtain rfl := Option.some.inj hn
    omega

/-- What is projected without a blank plan and without too many devices is accepted, and
nothing else is. -/
theorem validate_snapshot_iff (h : input.Sound) (hfits : input.devices.length < 2 ^ 32) :
    (input.snapshot input.devices.length (input.counted .connected)
      (input.counted .revoked)).validate = .ok () ↔
        ∀ record ∈ input.subscription, isBlank record.plan = false := by
  rw [DashboardSnapshot.validate_eq_ok_iff, validateIdentifiers_snapshot h]
  constructor
  · rintro ⟨-, -, hplan, -, -⟩
    exact hplan
  · intro hplan
    exact ⟨rfl, h.organization, hplan, validateProvenance_snapshot, validateSummary_snapshot hfits⟩

end TenantProjectionInput

/-! ### The records of the store -/

/-- The device records of an organisation. -/
def devicesOf (organizationId : String) (devices : Std.ExtTreeMap String TenantDeviceRecord) :
    List TenantDeviceRecord :=
  (devices.toList.filter fun entry => entry.2.organizationId = organizationId).map (·.2)

section Records

variable {organizationId : String} {devices : Std.ExtTreeMap String TenantDeviceRecord}

theorem mem_devicesOf_iff {record : TenantDeviceRecord} :
    record ∈ devicesOf organizationId devices ↔
      record.organizationId = organizationId ∧ ∃ key : String, devices[key]? = some record := by
  simp only [devicesOf, List.mem_map, List.mem_filter, decide_eq_true_eq, Prod.exists,
    Std.ExtTreeMap.mem_toList_iff_getElem?_eq_some]
  constructor
  · rintro ⟨key, found, ⟨hfound, hown⟩, rfl⟩
    exact ⟨hown, key, hfound⟩
  · rintro ⟨hown, key, hfound⟩
    exact ⟨key, record, ⟨hfound, hown⟩, rfl⟩

/-- The devices of an organisation have different identifiers, since the key of a record
is made of both. -/
theorem nodup_devicesOf (h : Entries TenantDeviceRecord.validate devices) :
    ((devicesOf organizationId devices).map (·.deviceId)).Nodup := by
  rw [devicesOf, List.map_map, List.Nodup, List.pairwise_map]
  refine (devices.distinct_keys_toList.filter _).imp_of_mem ?_
  intro entry entry' hmem hmem' hkeys
  have hkey : ∀ {entry : String × TenantDeviceRecord},
      entry ∈ devices.toList.filter (fun entry => entry.2.organizationId = organizationId) →
        entry.1 = tenantKey organizationId entry.2.deviceId := by
    intro entry hentry
    obtain ⟨hlisted, hown⟩ := List.mem_filter.mp hentry
    obtain ⟨-, -, hkey, -⟩ := TenantDeviceRecord.validate_eq_ok_iff.mp
      (h entry.1 entry.2 (Std.ExtTreeMap.mem_toList_iff_getElem?_eq_some.mp hlisted))
    rw [hkey, of_decide_eq_true hown]
  intro hids
  refine hkeys ?_
  rw [Std.compare_eq_iff_eq, hkey hmem, hkey hmem']
  exact congrArg (tenantKey organizationId) hids

end Records

namespace TenantProjectionInput

/-- What is projected is what the store holds of an organisation: its devices in any
order, and its usage if it is asked for. -/
structure Loaded (input : TenantProjectionInput) (state : TenantPersistedState) : Prop where
  organization : state.organizations[input.organization.organizationId]? = some input.organization
  devices : input.devices.Perm (devicesOf input.organization.organizationId state.devices)
  subscription : ∀ record ∈ input.subscription,
    record.organizationId = input.organization.organizationId
  usage : ∀ rows ∈ input.usage,
    rows = (usageOf input.organization.organizationId state.usage).map (·.2)

theorem Loaded.sound {input : TenantProjectionInput} {state : TenantPersistedState}
    (h : input.Loaded state) (hvalid : state.Valid) : input.Sound where
  organization := (OrganizationRecord.validate_eq_ok_iff.mp
    (hvalid.organizations _ _ h.organization)).1.1
  devices device hdevice := by
    obtain ⟨hown, key, hkey⟩ := mem_devicesOf_iff.mp (h.devices.mem_iff.mp hdevice)
    obtain ⟨-, hid, -, hworkspaces⟩ :=
      TenantDeviceRecord.validate_eq_ok_iff.mp (hvalid.devices key device hkey)
    exact ⟨hown, hid.1, fun workspaceId hmem => (hworkspaces workspaceId hmem).1⟩
  deviceIds := by
    rw [(h.devices.map _).nodup_iff]
    exact nodup_devicesOf hvalid.devices
  subscription := h.subscription
  usage rows hrows row hrow := by
    rw [h.usage rows hrows, List.mem_map] at hrow
    obtain ⟨entry, hentry, rfl⟩ := hrow
    obtain ⟨hlisted, hown⟩ := List.mem_filter.mp hentry
    obtain ⟨-, hworkspace, hkey, -⟩ := UsageRecord.validate_eq_ok_iff.mp
      (hvalid.usage entry.1 entry.2 (Std.ExtTreeMap.mem_toList_iff_getElem?_eq_some.mp hlisted))
    refine ⟨of_decide_eq_true hown, hkey.1, fun workspaceId hmem => ?_⟩
    rw [Option.mem_def.mp hmem] at hworkspace
    exact (validateId_eq_ok_iff.mp hworkspace).1

/-- Two inputs that agree on everything of one organisation: the state of the store may
hold other devices and other usage of the rest, and other links may be there. -/
structure SameOwn (input : TenantProjectionInput) (state : TenantPersistedState)
    (input' : TenantProjectionInput) (state' : TenantPersistedState) : Prop where
  organization : input'.organization = input.organization
  viewerRole : input'.viewerRole = input.viewerRole
  nowUnixMs : input'.nowUnixMs = input.nowUnixMs
  subscription : input'.subscription = input.subscription
  usageGiven : input'.usage.isSome = input.usage.isSome
  usage : usageOf input.organization.organizationId state'.usage =
    usageOf input.organization.organizationId state.usage
  devices : ∀ deviceId,
    state'.devices[tenantKey input.organization.organizationId deviceId]? =
      state.devices[tenantKey input.organization.organizationId deviceId]?
  connectedDevices : ∀ deviceId,
    ⟨input.organization.organizationId, deviceId⟩ ∈ input'.connectedDevices ↔
      ⟨input.organization.organizationId, deviceId⟩ ∈ input.connectedDevices

/-- What a snapshot shows of the devices: each of them once, with the status that its
record and its link say, and the numbers of them. -/
structure Shows (input : TenantProjectionInput) (snapshot : DashboardSnapshot) : Prop where
  devices : (snapshot.devices.map (·.deviceId)).Perm (input.devices.map (·.deviceId))
  nodup : (snapshot.devices.map (·.deviceId)).Nodup
  status : ∀ device ∈ input.devices, ∀ view ∈ snapshot.devices, view.deviceId = device.deviceId →
    view.status.known = some
      (if device.revoked = true then .revoked
       else if ⟨input.organization.organizationId, device.deviceId⟩ ∈ input.connectedDevices then
        .connected
       else .notConnected)
  total : snapshot.summary.totalDevices.known = some input.devices.length
  connected : snapshot.summary.connectedDevices.known = some
    (input.devices.countP fun device => !device.revoked &&
      decide (⟨input.organization.organizationId, device.deviceId⟩ ∈ input.connectedDevices))
  revoked : snapshot.summary.revokedDevices.known = some (input.devices.countP (·.revoked))

/-! ### What is shown -/

variable {input input' : TenantProjectionInput} {state state' : TenantPersistedState}

theorem status_eq_connected_iff {device : TenantDeviceRecord} :
    input.status device = .connected ↔ device.revoked = false ∧
      ⟨input.organization.organizationId, device.deviceId⟩ ∈ input.connectedDevices := by
  rw [status]
  split_ifs <;> simp_all

theorem status_eq_revoked_iff {device : TenantDeviceRecord} :
    input.status device = .revoked ↔ device.revoked = true := by
  rw [status]
  split_ifs <;> simp_all

theorem Sound.shows (h : input.Sound) : input.Shows
    (input.snapshot input.devices.length (input.counted .connected) (input.counted .revoked)) where
  devices := by
    have hperm := (deviceViews_perm input).map (·.deviceId)
    rw [List.map_map] at hperm
    exact hperm
  nodup := nodup_deviceViews h
  status device hdevice view hview hid := by
    obtain ⟨device', hdevice', rfl⟩ := exists_of_mem_deviceViews hview
    obtain rfl := List.inj_on_of_nodup_map h.deviceIds hdevice' hdevice hid
    rfl
  total := rfl
  connected := by
    refine congrArg some (List.countP_congr fun device _ => ?_)
    simp [status_eq_connected_iff]
  revoked := by
    refine congrArg some (List.countP_congr fun device _ => ?_)
    simp [status_eq_revoked_iff]

/-! ### What does not matter -/

namespace SameOwn

variable (h : input.SameOwn state input' state')
include h

theorem devices_perm (hinput : input.Loaded state) (hinput' : input'.Loaded state')
    (hvalid : state.Valid) (hvalid' : state'.Valid) : input'.devices.Perm input.devices := by
  have hloaded := hinput'.devices
  rw [h.organization] at hloaded
  have hkey : ∀ {state : TenantPersistedState}, state.Valid → ∀ {record : TenantDeviceRecord},
      record ∈ devicesOf input.organization.organizationId state.devices ↔
        record.organizationId = input.organization.organizationId ∧
          state.devices[tenantKey input.organization.organizationId record.deviceId]? =
            some record := by
    intro state hvalid record
    rw [mem_devicesOf_iff]
    refine and_congr_right fun hown => ⟨?_, fun hrecord => ⟨_, hrecord⟩⟩
    rintro ⟨key, hrecord⟩
    obtain ⟨-, -, hkey, -⟩ :=
      TenantDeviceRecord.validate_eq_ok_iff.mp (hvalid.devices key record hrecord)
    rwa [← hown, ← hkey]
  refine (hloaded.trans ?_).trans hinput.devices.symm
  rw [List.perm_ext_iff_of_nodup (.of_map _ (nodup_devicesOf hvalid'.devices))
    (.of_map _ (nodup_devicesOf hvalid.devices))]
  intro record
  rw [hkey hvalid', hkey hvalid, h.devices]

theorem usage_eq (hinput : input.Loaded state) (hinput' : input'.Loaded state') :
    input'.usage = input.usage := by
  have hgiven := h.usageGiven
  cases hrows : input.usage with
  | none =>
      rw [hrows, Option.isSome_none, Option.isSome_eq_false_iff] at hgiven
      exact Option.isNone_iff_eq_none.mp hgiven
  | some rows =>
      rw [hrows, Option.isSome_some, Option.isSome_iff_exists] at hgiven
      obtain ⟨rows', hrows'⟩ := hgiven
      rw [hrows', hinput.usage rows hrows, hinput'.usage rows' hrows', h.organization, h.usage]

/-- The snapshot is the same. -/
theorem projectLiveSnapshot_eq (hinput : input.Loaded state) (hinput' : input'.Loaded state')
    (hvalid : state.Valid) (hvalid' : state'.Valid) :
    input'.projectLiveSnapshot = input.projectLiveSnapshot := by
  have hsound := hinput.sound hvalid
  have hsound' := hinput'.sound hvalid'
  have hviews : input'.deviceViews = input.deviceViews := by
    refine deviceViews_congr hsound (h.devices_perm hinput hinput' hvalid hvalid')
      fun device _ => ?_
    simp only [deviceView, status, h.organization, h.nowUnixMs, h.connectedDevices]
  have hcount : ∀ status, input'.countStatus status = input.countStatus status := by
    intro status
    rw [countStatus, countStatus, hviews]
  have hsnapshot : ∀ total connected revoked,
      input'.snapshot total connected revoked = input.snapshot total connected revoked := by
    intro total connected revoked
    simp only [snapshot, subscriptionView, usageView, h.organization, h.viewerRole, h.nowUnixMs,
      h.subscription, h.usage_eq hinput hinput', hviews]
  simp only [projectLiveSnapshot, hasForeignRecord_eq_false hsound,
    hasForeignRecord_eq_false hsound', hviews, hcount, hsnapshot]

end SameOwn

end TenantProjectionInput

/-! ### Reachable stores -/

theorem TenantStoreCall.Run.sound {calls : List TenantStoreCall}
    {state state' : TenantPersistedState} (hrun : TenantStoreCall.Run calls state state')
    (h : state.Sound) : state'.Sound := by
  induction hrun with
  | nil => exact h
  | cons hstep _ ih =>
      refine ih ?_
      cases hstep with
      | ok hok => exact sound_onState hok h
      | failed => exact h

open TenantProjectionInput in
/-- Of a store that its operations have made, the projection of an organisation succeeds
unless a plan is blank or there are too many devices; what it makes is accepted and shows
the devices as they are; and nothing of another organisation, nor the order of the device
records, makes a difference. -/
theorem projectLiveSnapshot_correct {calls : List TenantStoreCall} {state : TenantPersistedState}
    (hrun : TenantStoreCall.Run calls {} state) {input : TenantProjectionInput}
    (hinput : input.Loaded state) :
    ((∃ snapshot, input.projectLiveSnapshot = .ok snapshot) ↔
      input.devices.length < 2 ^ 32 ∧
        ∀ record ∈ input.subscription, isBlank record.plan = false) ∧
    (∀ snapshot, input.projectLiveSnapshot = .ok snapshot →
      snapshot.validate = .ok () ∧ input.Shows snapshot) ∧
    ∀ (calls' : List TenantStoreCall) (state' : TenantPersistedState)
      (input' : TenantProjectionInput), TenantStoreCall.Run calls' {} state' →
        input'.Loaded state' → input.SameOwn state input' state' →
          input'.projectLiveSnapshot = input.projectLiveSnapshot := by
  have hvalid := (hrun.sound TenantPersistedState.sound_fresh).valid
  have hsound := hinput.sound hvalid
  refine ⟨?_, fun snapshot hsnapshot => ?_, fun calls' state' input' hrun' hinput' hsame => ?_⟩
  · constructor
    · rintro ⟨snapshot, hsnapshot⟩
      obtain ⟨hfits, rfl, haccepted⟩ := (projectLiveSnapshot_eq_ok_iff hsound).mp hsnapshot
      exact ⟨hfits, (validate_snapshot_iff hsound hfits).mp haccepted⟩
    · rintro ⟨hfits, hplan⟩
      exact ⟨_, (projectLiveSnapshot_eq_ok_iff hsound).mpr
        ⟨hfits, rfl, (validate_snapshot_iff hsound hfits).mpr hplan⟩⟩
  · obtain ⟨-, rfl, haccepted⟩ := (projectLiveSnapshot_eq_ok_iff hsound).mp hsnapshot
    exact ⟨haccepted, hsound.shows⟩
  · exact hsame.projectLiveSnapshot_eq hinput hinput' hvalid
      (hrun'.sound TenantPersistedState.sound_fresh).valid

/-! ### One connected device -/

namespace ProjectionSample

def calls : List TenantStoreCall := [.upsertOrganization "a" "A", .pairDevice "a" "d" ∅]

def device : TenantDeviceRecord := ⟨"a", "d", ∅, false⟩

def entered : TenantPersistedState where
  organizations := (∅ : Std.ExtTreeMap String OrganizationRecord).insert "a" ⟨"a", "A"⟩

def paired : TenantPersistedState :=
  { entered with devices := entered.devices.insert (tenantKey "a" "d") device }

theorem run_calls : TenantStoreCall.Run calls {} paired := by
  have henter : TenantStore.upsertOrganization "a" "A" {} = .ok ((), entered) := by
    simp only [TenantStore.upsertOrganization, bind_eq_ok, exists_unit, validateId_eq_ok_iff,
      TenantStore.mutateState_eq_ok_iff]
    exact ⟨by decide, TenantPersistedState.sound_fresh.valid, rfl⟩
  have hentered : entered.Valid :=
    { TenantPersistedState.sound_fresh.valid with
      organizations := TenantPersistedState.sound_fresh.valid.organizations.insert (by decide) }
  have hpair : TenantStore.pairDevice "a" "d" ∅ entered = .ok ((), paired) := by
    have horganization : entered.organizations.contains "a" := by
      simp [entered, Std.ExtTreeMap.contains_insert]
    simp only [TenantStore.pairDevice, bind_eq_ok, exists_unit, validateId_eq_ok_iff, failIf_eq_ok,
      TenantStore.mutateState_eq_ok_iff, pure_eq_ok]
    exact ⟨by decide, by decide, by decide, hentered, not_not_intro horganization, by simp, rfl⟩
  exact .cons (.ok (map_eq_ok.mpr ⟨_, henter, rfl⟩))
    (.cons (.ok (map_eq_ok.mpr ⟨_, hpair, rfl⟩)) .nil)

def input : TenantProjectionInput where
  organization := ⟨"a", "A"⟩
  viewerRole := .viewer
  devices := [device]
  connectedDevices := {⟨"a", "d"⟩, ⟨"b", "d"⟩}
  subscription := none
  usage := none
  nowUnixMs := 1

theorem loaded : input.Loaded paired where
  organization := Std.ExtTreeMap.getElem?_insert_self
  devices := by
    have hvalid := (run_calls.sound TenantPersistedState.sound_fresh).valid
    change [device].Perm (devicesOf "a" paired.devices)
    rw [List.perm_ext_iff_of_nodup (List.nodup_singleton _)
      (.of_map _ (nodup_devicesOf hvalid.devices))]
    intro record
    rw [mem_devicesOf_iff, List.mem_singleton]
    constructor
    · rintro rfl
      exact ⟨rfl, _, Std.ExtTreeMap.getElem?_insert_self⟩
    · rintro ⟨-, key, hkey⟩
      rw [paired, Std.ExtTreeMap.getElem?_insert] at hkey
      split at hkey
      · exact (Option.some.inj hkey).symm
      · exact absurd hkey (by simp [entered])
  subscription _ hrecord := by cases hrecord
  usage _ hrows := by cases hrows

end ProjectionSample

open ProjectionSample in
theorem projectLiveSnapshot_correct_sample :
    TenantStoreCall.Run calls {} paired ∧ ∃ snapshot, input.projectLiveSnapshot = .ok snapshot ∧
      snapshot.validate = .ok () ∧ input.Shows snapshot := by
  obtain ⟨hsucceeds, haccepted, -⟩ := projectLiveSnapshot_correct run_calls loaded
  obtain ⟨snapshot, hsnapshot⟩ := hsucceeds.mpr ⟨by decide, fun record hrecord => by cases hrecord⟩
  exact ⟨run_calls, snapshot, hsnapshot, haccepted snapshot hsnapshot⟩

end VorCommander
