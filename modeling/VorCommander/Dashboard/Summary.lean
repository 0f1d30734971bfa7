import VorCommander.Dashboard.Snapshot

/-!
What the counts of a summary are held to.

A device of unknown status may have any. The counts of a snapshot contradict its
devices unless some choice of these statuses makes all of them true at once. The
check compares each count for itself, and the sum of two of them with the number
of all devices; so it accepts some counts that are true each for itself and not
together.
-/

namespace VorCommander

open Steps

/-! ### Completions -/

section Completions

variable {α : Type*}

/-- A choice of what is not known. -/
def Completes (known : List (Option α)) (chosen : List α) : Prop :=
  List.Forall₂ (fun k a => ∀ b ∈ k, b = a) known chosen

theorem Completes.length_eq {known : List (Option α)} {chosen : List α}
    (h : Completes known chosen) : chosen.length = known.length := (List.Forall₂.length_eq h).symm

variable [DecidableEq α] {known : List (Option α)} {chosen : List α}

/-- What is known is counted, and at most what is not known in addition. -/
theorem Completes.count_bounds (h : Completes known chosen) {x y : α} (hne : x ≠ y) :
    known.count (some x) ≤ chosen.count x ∧ known.count (some y) ≤ chosen.count y ∧
      chosen.count x + chosen.count y ≤
        known.count (some x) + known.count (some y) + known.count none := by
  induction h with
  | nil => simp
  | @cons k a known chosen hk _ ih =>
      obtain ⟨hx, hy, hsum⟩ := ih
      cases k with
      | none =>
          by_cases hax : a = x
          · simp only [List.count_cons, hax, beq_iff_eq, hne, reduceCtorEq, ↓reduceIte]
            omega
          · simp only [List.count_cons, beq_iff_eq, hax, reduceCtorEq, ↓reduceIte]
            split <;> omega
      | some b =>
          obtain rfl := hk b rfl
          simp only [List.count_cons, beq_iff_eq, Option.some.injEq, reduceCtorEq, ↓reduceIte]
          omega

/-- Two values can be counted so often if each is at least as often known, and both
together are not more often than they are known or nothing is known. -/
theorem exists_completes {x y z : α} (hxy : x ≠ y) (hzx : z ≠ x) (hzy : z ≠ y) {m n : ℕ}
    (hm : known.count (some x) ≤ m) (hn : known.count (some y) ≤ n)
    (hsum : m + n ≤ known.count (some x) + known.count (some y) + known.count none) :
    ∃ chosen, Completes known chosen ∧ chosen.count x = m ∧ chosen.count y = n := by
  induction known generalizing m n with
  | nil =>
      simp only [List.count_nil] at hsum
      exact ⟨[], .nil, by simp; omega⟩
  | cons k known ih =>
      cases k with
      | some b =>
          have hb : ∀ c ∈ some b, c = b := by simp
          simp only [List.count_cons, beq_iff_eq, Option.some.injEq, reduceCtorEq, ↓reduceIte]
            at hm hn hsum
          obtain ⟨chosen, hchosen, hx, hy⟩ := ih (m := m - if b = x then 1 else 0)
            (n := n - if b = y then 1 else 0) (by omega) (by omega) (by omega)
          refine ⟨b :: chosen, .cons hb hchosen, ?_, ?_⟩
          · simp only [List.count_cons, beq_iff_eq]
            omega
          · simp only [List.count_cons, beq_iff_eq]
            omega
      | none =>
          have hnone : ∀ a : α, ∀ c ∈ (none : Option α), c = a := by simp
          simp only [List.count_cons, beq_iff_eq, reduceCtorEq, ↓reduceIte] at hm hn hsum
          -- one of the values that are still to be counted, or one that does not count
          by_cases hmore : known.count (some x) < m
          · obtain ⟨chosen, hchosen, hx, hy⟩ := ih (m := m - 1) (n := n) (by omega) hn (by omega)
            refine ⟨x :: chosen, .cons (hnone x) hchosen, ?_, ?_⟩
            · rw [List.count_cons_self]
              omega
            · rw [List.count_cons_of_ne hxy, hy]
          · by_cases hmore' : known.count (some y) < n
            · obtain ⟨chosen, hchosen, hx, hy⟩ := ih (m := m) (n := n - 1) hm (by omega) (by omega)
              refine ⟨y :: chosen, .cons (hnone y) hchosen, ?_, ?_⟩
              · rw [List.count_cons_of_ne hxy.symm, hx]
              · rw [List.count_cons_self]
                omega
            · obtain ⟨chosen, hchosen, hx, hy⟩ := ih (m := m) (n := n) hm hn (by omega)
              refine ⟨z :: chosen, .cons (hnone z) hchosen, ?_, ?_⟩
              · rw [List.count_cons_of_ne hzx, hx]
              · rw [List.count_cons_of_ne hzy, hy]

/-- One value can be counted so often if it is at least as often known, and not more
often than it is known or nothing is known. -/
theorem exists_completes_one_iff {x y z : α} (hxy : x ≠ y) (hzx : z ≠ x) (hzy : z ≠ y) {m : ℕ} :
    (∃ chosen, Completes known chosen ∧ chosen.count x = m) ↔
      known.count (some x) ≤ m ∧ m ≤ known.count (some x) + known.count none := by
  constructor
  · rintro ⟨chosen, hchosen, rfl⟩
    obtain ⟨hx, hy, hsum⟩ := hchosen.count_bounds hxy
    omega
  · rintro ⟨hm, hsum⟩
    obtain ⟨chosen, hchosen, hx, -⟩ := exists_completes hxy hzx hzy hm le_rfl (by omega)
    exact ⟨chosen, hchosen, hx⟩

end Completions

/-! ### Summaries -/

/-- The counts that are known are those of the chosen statuses. -/
structure SummaryView.TrueOf (summary : SummaryView) (chosen : List DeviceStatus) : Prop where
  total : ∀ n ∈ summary.totalDevices.known, n = chosen.length
  connected : ∀ n ∈ summary.connectedDevices.known, n = chosen.count .connected
  revoked : ∀ n ∈ summary.revokedDevices.known, n = chosen.count .revoked

namespace DashboardSnapshot

variable (snapshot : DashboardSnapshot)

/-- Some choice of the statuses that are not known makes all counts true that are
known. -/
def Consistent : Prop :=
  ∃ chosen, Completes snapshot.statuses chosen ∧ snapshot.summary.TrueOf chosen

/-- The two counts are true each for itself, and together not more than all devices;
but with the devices that are known to be neither they are more. -/
def Overcounted : Prop :=
  (∀ n ∈ snapshot.summary.totalDevices.known, n = snapshot.devices.length) ∧
    ∃ connected ∈ snapshot.summary.connectedDevices.known,
      ∃ revoked ∈ snapshot.summary.revokedDevices.known,
        (∃ chosen, Completes snapshot.statuses chosen ∧ chosen.count .connected = connected) ∧
        (∃ chosen, Completes snapshot.statuses chosen ∧ chosen.count .revoked = revoked) ∧
        connected + revoked ≤ snapshot.devices.length ∧
        snapshot.devices.length <
          connected + revoked + snapshot.statuses.count (some .notConnected)

variable {snapshot}

@[simp] theorem length_statuses : snapshot.statuses.length = snapshot.devices.length :=
  List.length_map _

/-- A status is one of the three, or it is not known. -/
theorem count_statuses :
    snapshot.statuses.count (some .connected) + snapshot.statuses.count (some .revoked) +
      snapshot.statuses.count (some .notConnected) + snapshot.statuses.count none =
        snapshot.devices.length := by
  rw [← length_statuses]
  induction snapshot.statuses with
  | nil => rfl
  | cons status statuses ih =>
      rw [List.length_cons, ← ih]
      rcases status with - | - | - | - <;> simp <;> omega

theorem validateCount_eq_ok_iff {name : String} {count : Option ℕ} {status : DeviceStatus} :
    snapshot.validateCount name count status = .ok () ↔ ∀ n ∈ count,
      snapshot.statuses.count (some status) ≤ n ∧
        n ≤ snapshot.statuses.count (some status) + snapshot.statuses.count none := by
  cases count with
  | none => simp [validateCount]
  | some n =>
      have hall : snapshot.statuses.all Option.isSome = true ↔
          snapshot.statuses.count none = 0 := by
        rw [List.all_eq_true, List.count_eq_zero]
        constructor
        · intro h hnone
          cases h none hnone
        · intro h known hknown
          rw [Option.isSome_iff_ne_none]
          rintro rfl
          exact h hknown
      have hsum := snapshot.count_statuses
      have hbound : snapshot.statuses.count (some status) + snapshot.statuses.count none ≤
          snapshot.devices.length := by
        cases status <;> omega
      simp only [validateCount, failIf_eq_ok, Option.mem_some_iff, forall_eq', hall]
      split
      · simp only [decide_eq_false_iff_not]
        omega
      · simp only [Bool.and_eq_false_iff, decide_eq_false_iff_not]
        omega

theorem summary_accepted_iff :
    snapshot.validateSummary = .ok () ↔ snapshot.devices.length < 2 ^ 32 ∧
      (∀ n ∈ snapshot.summary.totalDevices.known, n = snapshot.devices.length) ∧
      (∀ n ∈ snapshot.summary.connectedDevices.known,
        snapshot.statuses.count (some .connected) ≤ n ∧
          n ≤ snapshot.statuses.count (some .connected) + snapshot.statuses.count none) ∧
      (∀ n ∈ snapshot.summary.revokedDevices.known,
        snapshot.statuses.count (some .revoked) ≤ n ∧
          n ≤ snapshot.statuses.count (some .revoked) + snapshot.statuses.count none) ∧
      ∀ m ∈ snapshot.summary.connectedDevices.known, ∀ n ∈ snapshot.summary.revokedDevices.known,
        m + n ≤ snapshot.devices.length := by
  simp [validateSummary, validateCount_eq_ok_iff]

/-- All counts are true together if each is in its range and the two do not take more
than is left to them. -/
theorem consistent_iff :
    snapshot.Consistent ↔
      (∀ n ∈ snapshot.summary.totalDevices.known, n = snapshot.devices.length) ∧
      (∀ n ∈ snapshot.summary.connectedDevices.known,
        snapshot.statuses.count (some .connected) ≤ n ∧
          n ≤ snapshot.statuses.count (some .connected) + snapshot.statuses.count none) ∧
      (∀ n ∈ snapshot.summary.revokedDevices.known,
        snapshot.statuses.count (some .revoked) ≤ n ∧
          n ≤ snapshot.statuses.count (some .revoked) + snapshot.statuses.count none) ∧
      ∀ m ∈ snapshot.summary.connectedDevices.known, ∀ n ∈ snapshot.summary.revokedDevices.known,
        m + n + snapshot.statuses.count (some .notConnected) ≤ snapshot.devices.length := by
  have hsum := snapshot.count_statuses
  constructor
  · rintro ⟨chosen, hchosen, htrue⟩
    obtain ⟨hconnected, hrevoked, hboth⟩ :=
      hchosen.count_bounds (x := DeviceStatus.connected) (y := .revoked) (by decide)
    refine ⟨fun n hn => ?_, fun n hn => ?_, fun n hn => ?_, fun m hm n hn => ?_⟩
    · rw [htrue.total n hn, hchosen.length_eq, length_statuses]
    · rw [htrue.connected n hn]
      omega
    · rw [htrue.revoked n hn]
      omega
    · rw [htrue.connected m hm, htrue.revoked n hn]
      omega
  · rintro ⟨htotal, hconnected, hrevoked, hboth⟩
    -- a count that is not known is taken to be the one of the devices of known status
    let m := snapshot.summary.connectedDevices.known.getD
      (snapshot.statuses.count (some .connected))
    let n := snapshot.summary.revokedDevices.known.getD (snapshot.statuses.count (some .revoked))
    have hm : snapshot.statuses.count (some .connected) ≤ m ∧
        m ≤ snapshot.statuses.count (some .connected) + snapshot.statuses.count none := by
      cases hknown : snapshot.summary.connectedDevices.known with
      | none => simp [m, hknown]
      | some k => simpa [m, hknown] using hconnected k hknown
    have hn : snapshot.statuses.count (some .revoked) ≤ n ∧
        n ≤ snapshot.statuses.count (some .revoked) + snapshot.statuses.count none := by
      cases hknown : snapshot.summary.revokedDevices.known with
      | none => simp [n, hknown]
      | some k => simpa [n, hknown] using hrevoked k hknown
    have hmn : m + n + snapshot.statuses.count (some .notConnected) ≤ snapshot.devices.length := by
      cases hknown : snapshot.summary.connectedDevices.known with
      | none =>
          have hm : m = snapshot.statuses.count (some .connected) := by simp [m, hknown]
          omega
      | some k =>
          cases hknown' : snapshot.summary.revokedDevices.known with
          | none =>
              have hn : n = snapshot.statuses.count (some .revoked) := by simp [n, hknown']
              omega
          | some k' => simpa [m, n, hknown, hknown'] using hboth k hknown k' hknown'
    obtain ⟨chosen, hchosen, hcountConnected, hcountRevoked⟩ :
        ∃ chosen, Completes snapshot.statuses chosen ∧ chosen.count .connected = m ∧
          chosen.count .revoked = n :=
      exists_completes (z := .notConnected) (by decide) (by decide) (by decide) hm.1 hn.1 (by omega)
    refine ⟨chosen, hchosen, fun k hk => ?_, fun k hk => ?_, fun k hk => ?_⟩
    · rw [htotal k hk, hchosen.length_eq, length_statuses]
    · simp [hcountConnected, m, Option.mem_def.mp hk]
    · simp [hcountRevoked, n, Option.mem_def.mp hk]

/-- Known counts are accepted if they are true together for some choice of the statuses
that are not known, and beyond that only if they are true each for itself. -/
theorem validateSummary_eq_ok_iff :
    snapshot.validateSummary = .ok () ↔ snapshot.devices.length < 2 ^ 32 ∧
      (snapshot.Consistent ∨ snapshot.Overcounted) := by
  have hsum := snapshot.count_statuses
  have hconnected : ∀ n, (∃ chosen, Completes snapshot.statuses chosen ∧
      chosen.count .connected = n) ↔ _ := fun n =>
    exists_completes_one_iff (x := DeviceStatus.connected) (y := .revoked) (z := .notConnected)
      (by decide) (by decide) (by decide)
  have hrevoked : ∀ n, (∃ chosen, Completes snapshot.statuses chosen ∧
      chosen.count .revoked = n) ↔ _ := fun n =>
    exists_completes_one_iff (x := DeviceStatus.revoked) (y := .connected) (z := .notConnected)
      (by decide) (by decide) (by decide)
  simp only [summary_accepted_iff, consistent_iff, Overcounted, hconnected, hrevoked]
  cases snapshot.summary.connectedDevices.known with
  | none => simp
  | some m =>
      cases snapshot.summary.revokedDevices.known with
      | none => simp
      | some n =>
          simp only [Option.mem_some_iff, forall_eq', exists_eq_left']
          constructor
          · rintro ⟨hlength, htotal, hm, hn, hle⟩
            refine ⟨hlength, ?_⟩
            by_cases hmore : snapshot.devices.length <
                m + n + snapshot.statuses.count (some .notConnected)
            · exact .inr ⟨htotal, hm, hn, hle, hmore⟩
            · exact .inl ⟨htotal, hm, hn, not_lt.mp hmore⟩
          · rintro ⟨hlength, ⟨htotal, hm, hn, hle⟩ | ⟨htotal, hm, hn, hle, -⟩⟩
            · exact ⟨hlength, htotal, hm, hn, by omega⟩
            · exact ⟨hlength, htotal, hm, hn, hle⟩

end DashboardSnapshot

/-! ### A device that is not connected -/

namespace SnapshotSample

def device (deviceId : String) (status : Observed DeviceStatus) : DeviceView where
  deviceId := deviceId
  workspaceIds := []
  status := status
  displayName := .unknown .notReported
  os := .unknown .notReported
  agentVersion := .unknown .notReported
  capabilities := .unknown .notReported
  lastSeenUnixMs := .unknown .notImplemented

/-- Of two devices one is known not to be connected, and one is counted as connected and
one as revoked. -/
def snapshot : DashboardSnapshot where
  schemaVersion := snapshotSchemaVersion
  mode := .live
  generatedAtUnixMs := 1
  organization := ⟨"org", .live "Org" 1, .live .viewer 1⟩
  summary := ⟨.live 2 1, .live 1 1, .live 1 1⟩
  devices := [device "a" (.live .notConnected 1), device "b" (.unknown .unavailable)]
  subscription := .unknown .notReported
  usage := .unknown .notImplemented

end SnapshotSample

open SnapshotSample in
/-- The counts of the sample are accepted, and no choice of the status that is not known
makes both true. -/
theorem validateSummary_not_exact :
    snapshot.devices.length < 2 ^ 32 ∧ snapshot.validateSummary = .ok () ∧
      ¬ ∃ chosen, Completes snapshot.statuses chosen ∧ snapshot.summary.TrueOf chosen := by
  refine ⟨by decide, by decide, fun hconsistent => ?_⟩
  obtain ⟨-, -, -, hboth⟩ := DashboardSnapshot.consistent_iff.mp hconsistent
  exact absurd (hboth 1 rfl 1 rfl) (by decide)

end VorCommander
