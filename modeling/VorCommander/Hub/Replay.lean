import VorCommander.Hub.Frames

/-!
A replay guard over a run.

The two tables of a guard grow together and lose the same entries. An accepted
frame stays in both as long as it has not expired, if time does not go back; so
no other frame can use its identifier or its nonce during that time, and the
frame itself is never accepted again.
-/

namespace VorCommander

open Crypto Steps Text

/-- A call of a replay guard. -/
inductive GuardCall
  | accept (frame : V1.RelayFrame) (nowUnixMs : ℕ)
  | prune (nowUnixMs : ℕ)

def GuardCall.now : GuardCall → ℕ
  | .accept _ nowUnixMs => nowUnixMs
  | .prune nowUnixMs => nowUnixMs

namespace ReplayGuard

variable (P : Primitives)

def call (guard : ReplayGuard) : GuardCall → ReplayGuard
  | .accept frame nowUnixMs => (guard.accept P frame nowUnixMs).2
  | .prune nowUnixMs => guard.prune nowUnixMs

/-- The guard after calls, the last of them first. -/
def after (guard : ReplayGuard) : List GuardCall → ReplayGuard
  | [] => guard
  | last :: earlier => (after guard earlier).call P last

/-- The guard accepts the frame at that time. -/
def Accepts (guard : ReplayGuard) (frame : V1.RelayFrame) (nowUnixMs : ℕ) : Prop :=
  (guard.accept P frame nowUnixMs).1 = .ok ()

instance (guard : ReplayGuard) (frame : V1.RelayFrame) (nowUnixMs : ℕ) :
    Decidable (guard.Accepts P frame nowUnixMs) :=
  decidable_of_iff _ accept_eq_ok_iff.symm

/-- The times of calls, the last of them first, do not go back. -/
def InOrder (calls : List GuardCall) : Prop :=
  calls.Pairwise fun later earlier => earlier.now ≤ later.now

instance (calls : List GuardCall) : Decidable (InOrder calls) :=
  inferInstanceAs (Decidable (calls.Pairwise _))

variable {P}

/-! ### One call -/

/-- An accepted frame has not expired, is new, and is entered with its expiry. -/
theorem Accepts.cases {guard : ReplayGuard} {frame : V1.RelayFrame} {now : ℕ}
    (h : guard.Accepts P frame now) :
    ∃ expiry, Wire.requiredExpiry frame.expiresAt = .ok expiry ∧ now < expiry ∧
      ¬ (guard.prune now).Seen P frame ∧ ¬ (guard.prune now).Full ∧
      (guard.accept P frame now).2 =
        { guard.prune now with
          messageIds := (messageKey frame, expiry) :: (guard.prune now).messageIds
          nonces := (nonceKey P frame, expiry) :: (guard.prune now).nonces } := by
  obtain ⟨hverify, hseen, hfull⟩ := accept_eq_ok_iff.mp h
  obtain ⟨_, expiry, hexpiry, hnow⟩ := Wire.verifyFrameAt_eq_ok_iff.mp hverify
  refine ⟨expiry, hexpiry, hnow, hseen, hfull, ?_⟩
  simp [accept, hverify, enter, hexpiry, hseen, hfull]

/-- A frame that is not accepted changes the guard at most by a pruning. -/
theorem accept_of_not_accepts {guard : ReplayGuard} {frame : V1.RelayFrame} {now : ℕ}
    (h : ¬ guard.Accepts P frame now) :
    (guard.accept P frame now).2 = guard ∨ (guard.accept P frame now).2 = guard.prune now := by
  rw [Accepts] at h
  unfold accept at h ⊢
  cases hverify : Wire.verifyFrameAt frame now with
  | error error => exact .inl rfl
  | ok _ =>
      cases henter : (guard.prune now).enter P frame with
      | error error => exact .inr rfl
      | ok next =>
          rw [hverify, henter] at h
          exact absurd rfl h

/-! ### The tables -/

/-- Both tables hold the same number of entries, one for each key, and not more
than there is room for. -/
structure Sound (guard : ReplayGuard) : Prop where
  paired : guard.messageIds.map (·.2) = guard.nonces.map (·.2)
  messageIds : (guard.messageIds.map (·.1)).Nodup
  nonces : (guard.nonces.map (·.1)).Nodup
  bounded : guard.messageIds.length ≤ guard.maxEntries

theorem Sound.length_eq {guard : ReplayGuard} (h : guard.Sound) :
    guard.messageIds.length = guard.nonces.length := by
  have hlength := congrArg List.length h.paired
  rwa [List.length_map, List.length_map] at hlength

theorem Sound.new {maxEntries : ℕ} {guard : ReplayGuard} (h : new maxEntries = .ok guard) :
    guard.Sound := by
  simp only [ReplayGuard.new, bind_eq_ok, pure_eq_ok] at h
  obtain ⟨_, _, rfl⟩ := h
  exact ⟨rfl, List.nodup_nil, List.nodup_nil, Nat.zero_le _⟩

/-- What is pruned goes from both tables. -/
theorem Sound.prune {guard : ReplayGuard} (h : guard.Sound) (now : ℕ) :
    (guard.prune now).Sound where
  paired := by
    show (guard.messageIds.filter fun entry => decide (now < entry.2)).map (·.2) =
      (guard.nonces.filter fun entry => decide (now < entry.2)).map (·.2)
    have hcommute : ∀ {α : Type} (entries : List (α × ℕ)),
        (entries.filter fun entry => decide (now < entry.2)).map (·.2) =
          (entries.map (·.2)).filter fun expiry => decide (now < expiry) := by
      intro α entries
      rw [List.filter_map]
      rfl
    rw [hcommute, hcommute, h.paired]
  messageIds := h.messageIds.sublist (List.filter_sublist.map _)
  nonces := h.nonces.sublist (List.filter_sublist.map _)
  bounded := le_trans (List.length_filter_le _ _) h.bounded

theorem Sound.accept {guard : ReplayGuard} (h : guard.Sound) (frame : V1.RelayFrame) (now : ℕ) :
    (guard.accept P frame now).2.Sound := by
  by_cases haccepts : guard.Accepts P frame now
  · obtain ⟨expiry, -, -, hseen, hfull, heq⟩ := haccepts.cases
    rw [heq]
    have hpruned := h.prune now
    rw [Seen, not_or] at hseen
    rw [Full, not_or, Nat.not_le] at hfull
    exact ⟨congrArg (expiry :: ·) hpruned.paired, List.nodup_cons.mpr ⟨hseen.1, hpruned.messageIds⟩,
      List.nodup_cons.mpr ⟨hseen.2, hpruned.nonces⟩, hfull.1⟩
  · rcases accept_of_not_accepts haccepts with heq | heq
    · rwa [heq]
    · rw [heq]
      exact h.prune now

theorem Sound.after {guard : ReplayGuard} (h : guard.Sound) (calls : List GuardCall) :
    (guard.after P calls).Sound := by
  induction calls with
  | nil => exact h
  | cons last earlier ih =>
      cases last with
      | accept frame now => exact ih.accept frame now
      | prune now => exact ih.prune now

@[simp] theorem maxEntries_prune (guard : ReplayGuard) (now : ℕ) :
    (guard.prune now).maxEntries = guard.maxEntries := rfl

@[simp] theorem maxEntries_accept (guard : ReplayGuard) (frame : V1.RelayFrame) (now : ℕ) :
    (guard.accept P frame now).2.maxEntries = guard.maxEntries := by
  by_cases haccepts : guard.Accepts P frame now
  · obtain ⟨expiry, -, -, -, -, heq⟩ := haccepts.cases
    rw [heq]
    rfl
  · rcases accept_of_not_accepts haccepts with heq | heq <;> rw [heq]
    rfl

theorem maxEntries_after (guard : ReplayGuard) (calls : List GuardCall) :
    (guard.after P calls).maxEntries = guard.maxEntries := by
  induction calls with
  | nil => rfl
  | cons last earlier ih =>
      cases last with
      | accept frame now => exact (maxEntries_accept _ frame now).trans ih
      | prune now => exact ih

/-! ### What is remembered -/

/-- Both tables have an accepted frame until its expiry. -/
def Remembers (P : Primitives) (guard : ReplayGuard) (frame : V1.RelayFrame) (expiry : ℕ) : Prop :=
  (messageKey frame, expiry) ∈ guard.messageIds ∧ (nonceKey P frame, expiry) ∈ guard.nonces

theorem Remembers.prune {guard : ReplayGuard} {frame : V1.RelayFrame} {expiry now : ℕ}
    (h : guard.Remembers P frame expiry) (hnow : now < expiry) :
    (guard.prune now).Remembers P frame expiry :=
  ⟨List.mem_filter.mpr ⟨h.1, decide_eq_true hnow⟩, List.mem_filter.mpr ⟨h.2, decide_eq_true hnow⟩⟩

theorem Remembers.call {guard : ReplayGuard} {frame : V1.RelayFrame} {expiry : ℕ}
    (h : guard.Remembers P frame expiry) {call : GuardCall} (hnow : call.now < expiry) :
    (guard.call P call).Remembers P frame expiry := by
  cases call with
  | prune now => exact h.prune hnow
  | accept other now =>
      show (guard.accept P other now).2.Remembers P frame expiry
      by_cases haccepts : guard.Accepts P other now
      · obtain ⟨_, -, -, -, -, heq⟩ := haccepts.cases
        rw [heq]
        exact ⟨List.mem_cons_of_mem _ (h.prune hnow).1, List.mem_cons_of_mem _ (h.prune hnow).2⟩
      · rcases accept_of_not_accepts haccepts with heq | heq
        · rwa [heq]
        · rw [heq]
          exact h.prune hnow

/-- An accepted frame is remembered. -/
theorem Accepts.remembers {guard : ReplayGuard} {frame : V1.RelayFrame} {now expiry : ℕ}
    (h : guard.Accepts P frame now) (hexpiry : Wire.requiredExpiry frame.expiresAt = .ok expiry) :
    (guard.accept P frame now).2.Remembers P frame expiry := by
  obtain ⟨expiry', hexpiry', -, -, -, heq⟩ := h.cases
  obtain rfl : expiry = expiry' := Except.ok.inj (hexpiry ▸ hexpiry')
  rw [heq]
  exact ⟨List.mem_cons_self, List.mem_cons_self⟩

/-- It stays remembered as long as no call comes at its expiry or later. -/
theorem Accepts.remembers_after {guard : ReplayGuard} {frame : V1.RelayFrame} {now expiry : ℕ}
    {earlier : List GuardCall} (h : (guard.after P earlier).Accepts P frame now)
    (hexpiry : Wire.requiredExpiry frame.expiresAt = .ok expiry) {between : List GuardCall}
    (hbetween : ∀ call ∈ between, call.now < expiry) :
    (guard.after P (between ++ .accept frame now :: earlier)).Remembers P frame expiry := by
  induction between with
  | nil => exact h.remembers hexpiry
  | cons last between ih =>
      obtain ⟨hlast, hbetween⟩ := List.forall_mem_cons.mp hbetween
      exact (ih hbetween).call hlast

/-- A frame that shares an identifier or a nonce with one that is remembered is
not accepted. -/
theorem Remembers.not_accepts {guard : ReplayGuard} {frame frame' : V1.RelayFrame} {expiry now : ℕ}
    (h : guard.Remembers P frame' expiry) (hdevice : frame.deviceId = frame'.deviceId)
    (hsame : frame.messageId = frame'.messageId ∨ frame.nonce = frame'.nonce)
    (hnow : now < expiry) : ¬ guard.Accepts P frame now := by
  intro haccepts
  obtain ⟨_, -, -, hseen, -, -⟩ := haccepts.cases
  have hpruned := h.prune hnow
  apply hseen
  rcases hsame with hid | hnonce
  · have hkey : messageKey frame = messageKey frame' := by rw [messageKey, messageKey, hdevice, hid]
    exact .inl (hkey ▸ List.mem_map_of_mem hpruned.1)
  · have hkey : nonceKey P frame = nonceKey P frame' := by
      rw [nonceKey, nonceKey, hdevice, hnonce]
    exact .inr (hkey ▸ List.mem_map_of_mem hpruned.2)

/-! ### Runs -/

/-- What a guard guarantees over calls, the last of them first. -/
structure GuardsAgainstReplay (P : Primitives) (guard : ReplayGuard) (calls : List GuardCall) :
    Prop where
  /-- As long as an accepted frame has not expired, no frame with its identifier
  or its nonce is accepted. -/
  exclusive : ∀ later frame now between frame' now' earlier,
    calls = later ++ .accept frame now :: (between ++ .accept frame' now' :: earlier) →
    (guard.after P earlier).Accepts P frame' now' →
    frame.deviceId = frame'.deviceId →
    frame.messageId = frame'.messageId ∨ frame.nonce = frame'.nonce →
    ∀ expiry, Wire.requiredExpiry frame'.expiresAt = .ok expiry → now < expiry →
      ¬ (guard.after P (between ++ .accept frame' now' :: earlier)).Accepts P frame now
  /-- An expired frame is not accepted. -/
  live : ∀ later frame now earlier, calls = later ++ .accept frame now :: earlier →
    ∀ expiry, Wire.requiredExpiry frame.expiresAt = .ok expiry → expiry ≤ now →
      ¬ (guard.after P earlier).Accepts P frame now
  /-- No frame is accepted twice. -/
  once : ∀ later frame now between now' earlier,
    calls = later ++ .accept frame now :: (between ++ .accept frame now' :: earlier) →
    (guard.after P earlier).Accepts P frame now' →
    ¬ (guard.after P (between ++ .accept frame now' :: earlier)).Accepts P frame now
  /-- The tables are of one size, and there is room for them. -/
  sizes : (guard.after P calls).messageIds.length = (guard.after P calls).nonces.length ∧
    (guard.after P calls).messageIds.length ≤ guard.maxEntries
  /-- They have one entry for each key. -/
  keys : ((guard.after P calls).messageIds.map (·.1)).Nodup ∧
    ((guard.after P calls).nonces.map (·.1)).Nodup
  /-- A frame that is not accepted adds no entry. -/
  refused : ∀ later frame now earlier, calls = later ++ .accept frame now :: earlier →
    ¬ (guard.after P earlier).Accepts P frame now →
    (guard.after P (.accept frame now :: earlier)).messageIds ⊆
        (guard.after P earlier).messageIds ∧
      (guard.after P (.accept frame now :: earlier)).nonces ⊆ (guard.after P earlier).nonces

/-- In a run whose times do not go back, a call comes before the ones after it. -/
theorem InOrder.now_le {later between earlier : List GuardCall} {last first : GuardCall}
    (h : InOrder (later ++ last :: (between ++ first :: earlier))) :
    ∀ call ∈ between, call.now ≤ last.now := by
  intro call hcall
  have hlast := (List.pairwise_cons.mp (List.pairwise_append.mp h).2.1).1
  exact hlast call (List.mem_append_left _ hcall)

theorem guardsAgainstReplay_of_new (P : Primitives) (maxEntries : ℕ) (guard : ReplayGuard)
    (hnew : new maxEntries = .ok guard) (calls : List GuardCall) (hordered : InOrder calls) :
    GuardsAgainstReplay P guard calls := by
  have hexclusive : ∀ later frame now between frame' now' earlier,
      calls = later ++ .accept frame now :: (between ++ .accept frame' now' :: earlier) →
      (guard.after P earlier).Accepts P frame' now' →
      frame.deviceId = frame'.deviceId →
      frame.messageId = frame'.messageId ∨ frame.nonce = frame'.nonce →
      ∀ expiry, Wire.requiredExpiry frame'.expiresAt = .ok expiry → now < expiry →
        ¬ (guard.after P (between ++ .accept frame' now' :: earlier)).Accepts P frame now := by
    intro later frame now between frame' now' earlier heq haccepts hdevice hsame expiry hexpiry hnow
    subst heq
    have hbetween : ∀ call ∈ between, call.now < expiry := by
      intro call hcall
      have hle : call.now ≤ now := hordered.now_le call hcall
      omega
    exact (haccepts.remembers_after hexpiry hbetween).not_accepts hdevice hsame hnow
  have hlive : ∀ (earlier : List GuardCall) frame now expiry,
      Wire.requiredExpiry frame.expiresAt = .ok expiry → expiry ≤ now →
      ¬ (guard.after P earlier).Accepts P frame now := by
    intro earlier frame now expiry hexpiry hle haccepts
    obtain ⟨expiry', hexpiry', hnow, -⟩ := haccepts.cases
    obtain rfl : expiry = expiry' := Except.ok.inj (hexpiry ▸ hexpiry')
    omega
  have hsound : (guard.after P calls).Sound := (Sound.new hnew).after calls
  refine ⟨hexclusive, ?_, ?_, ⟨hsound.length_eq, ?_⟩, ⟨hsound.messageIds, hsound.nonces⟩, ?_⟩
  · intro _ frame now earlier _ expiry hexpiry hle
    exact hlive earlier frame now expiry hexpiry hle
  · intro later frame now between now' earlier heq haccepts
    obtain ⟨expiry, hexpiry, -⟩ := haccepts.cases
    -- the second time the frame has expired, or it is remembered
    rcases Nat.lt_or_ge now expiry with hlt | hge
    · exact hexclusive later frame now between frame now' earlier heq haccepts rfl (.inl rfl)
        expiry hexpiry hlt
    · exact hlive _ frame now expiry hexpiry hge
  · rw [← maxEntries_after (P := P) guard calls]
    exact hsound.bounded
  · intro _ frame now earlier _ hrefused
    show (((guard.after P earlier).accept P frame now).2).messageIds ⊆ _ ∧
      (((guard.after P earlier).accept P frame now).2).nonces ⊆ _
    rcases accept_of_not_accepts hrefused with heq | heq
    · rw [heq]
      exact ⟨List.Subset.refl _, List.Subset.refl _⟩
    · rw [heq]
      exact ⟨List.filter_subset_self _, List.filter_subset_self _⟩

/-- A heartbeat comes twice before it expires. -/
theorem guardsAgainstReplay_heartbeat :
    let frame : V1.RelayFrame :=
      { wireVersion := 1, messageId := "message", deviceId := "device", expiresAt := some ⟨1, 0⟩
        nonce := List.replicate 16 7, payload := some (.heartbeat ⟨none⟩) }
    let guard : ReplayGuard := { maxEntries := 1 }
    let calls : List GuardCall := [.accept frame 20, .prune 15, .accept frame 10]
    guard.Accepts reference frame 10 ∧ GuardsAgainstReplay reference guard calls :=
  ⟨by decide +kernel, guardsAgainstReplay_of_new reference 1 _ rfl _ (by decide)⟩

end ReplayGuard

end VorCommander
