import VorCommander.Auth.Revocation

/-!
Codes are used once.

A redemption reads the file again inside of the lock, and removes the code from
what it writes. So a code that is still there has been redeemed fewer times
than it has been created, whatever other processes do in between.
-/

namespace VorCommander

open Crypto Steps Steps.Program Steps.World

variable {P : Primitives} {windows : Bool} {files : StoreFiles (grants P)}
  {mayStart : World (storeSystem (grants P) windows) → StoreEntry (grants P) → Prop}
  {w w' : World (storeSystem (grants P) windows)}

/-! ### Redemptions and creations -/

/-- The hash of the code that a call redeems. -/
def GrantStoreCall.redeemed (P : Primitives) : GrantStoreCall → Option String
  | .redeemPairing code _ _ => some (GrantStore.tokenHashHex P code)
  | _ => none

/-- An operation redeems the code with this hash. -/
def StoreEntry.redeems (hash : String) : StoreEntry (grants P) → Bool
  | .openStore => false
  | .call asked => asked.val.redeemed P = some hash

/-- An operation creates a code with this hash. -/
def StoreEntry.creates (hash : String) (draws : (grants P).Draws) : StoreEntry (grants P) → Bool
  | .openStore => false
  | .call asked => (asked.val.createdPairing P draws).map (·.1) = some hash

/-- How many redemptions of a code have written. -/
def redemptions (w : World (storeSystem (grants P) windows)) (hash : String) : ℕ :=
  (writes w.log).countP fun op => (entryOf w op.1).redeems hash

/-- How many creations of a code have written. -/
def creations (w : World (storeSystem (grants P) windows)) (hash : String) : ℕ :=
  (writes w.log).countP fun op => (entryOf w op.1).creates hash op.2

/-- The code is in a state. -/
def HasCode (hash : String) (state : PersistedState) : Prop := state.pairings[hash]? ≠ none

theorem not_hasCode {hash : String} {state : PersistedState} (h : state.pairings = ∅) :
    ¬ HasCode hash state := by
  rw [HasCode, h, not_not]
  exact Std.ExtTreeMap.getElem?_empty

/-- How many codes with this hash there are at the beginning. -/
def initially (files : StoreFiles (grants P)) (hash : String) : ℕ :=
  match files.target with
  | some (some first) => if (PersistedState.pairings first)[hash]?.isSome then 1 else 0
  | _ => 0

/-! ### One operation -/

/-- A redemption finds its code, which has not expired, and removes it. -/
theorem redeemPairing_onState {code actorId : String} {now : ℕ} {draws : StoreDraws}
    {before next : PersistedState}
    (h : (GrantStoreCall.redeemPairing code actorId now).onState P draws before = .ok next) :
    (∃ pairing, before.pairings[GrantStore.tokenHashHex P code]? = some pairing ∧
      now < pairing.expiresAtUnixMs) ∧ ¬ HasCode (GrantStore.tokenHashHex P code) next := by
  obtain ⟨issued, h⟩ := GrantStoreCall.written_eq_ok.mp h
  obtain ⟨_, pairing, hget, hfresh, _, _, rfl⟩ := GrantStore.redeemPairing_eq_ok_iff.mp h
  refine ⟨⟨pairing, hget, hfresh⟩, ?_⟩
  rw [HasCode, not_not]
  exact Std.ExtTreeMap.getElem?_erase_self

/-- What an operation that writes means for a code: a redemption consumes it,
and afterwards it is there only if it has been created or was there before. -/
theorem code_of_onState {asked : (grants P).Call} {draws : StoreDraws}
    {before next : PersistedState} (hash : String)
    (h : asked.val.onState P draws before = .ok next) :
    ((StoreEntry.call asked).redeems hash = true → HasCode hash before ∧ ¬ HasCode hash next) ∧
      (HasCode hash next → (StoreEntry.call asked).creates hash draws = true ∨
        HasCode hash before) := by
  constructor
  · intro hredeems
    obtain ⟨call, _⟩ := asked
    cases call with
    | redeemPairing code actorId now =>
        obtain rfl := Option.some.inj (of_decide_eq_true hredeems)
        obtain ⟨⟨pairing, hget, _⟩, hgone⟩ := redeemPairing_onState h
        refine ⟨?_, hgone⟩
        rw [HasCode, hget]
        simp
    | _ => simp [StoreEntry.redeems, GrantStoreCall.redeemed] at hredeems
  · intro hcode
    obtain ⟨pairing, hget⟩ := Option.ne_none_iff_exists'.mp hcode
    rcases (GrantStoreCall.onState_evolves h).pairings hash pairing hget with hcreated | hold
    · refine .inl (decide_eq_true ?_)
      rw [hcreated]
      rfl
    · refine .inr ?_
      rw [HasCode, hold]
      simp

/-! ### The counts -/

theorem count_step (hw : Reachable (· = files) mayStart w) (hstep : Step mayStart w w')
    (test : StoreEntry (grants P) → (grants P).Draws → Bool) :
    (writes w.log).countP (fun op => test (entryOf w' op.1) op.2) =
      (writes w.log).countP fun op => test (entryOf w op.1) op.2 := by
  refine List.countP_congr fun op hop => ?_
  obtain ⟨e, he⟩ := mem_of_mem_writes hop
  obtain ⟨c, hc⟩ := hw.consistent.started _ e he
  rw [entryOf_step hstep hc]

/-- The counts do not change while nothing is put in place. -/
theorem counts_same (hw : Reachable (· = files) mayStart w) (hstep : Step mayStart w w')
    (hwrites : writes w'.log = writes w.log) (hash : String) :
    redemptions w' hash = redemptions w hash ∧ creations w' hash = creations w hash := by
  rw [redemptions, creations, hwrites]
  exact ⟨count_step hw hstep fun entry _ => entry.redeems hash,
    count_step hw hstep fun entry draws => entry.creates hash draws⟩

/-- An operation that is put in place counts as what it is. -/
theorem counts_put (hw : Reachable (· = files) mayStart w) (hstep : Step mayStart w w') {i : ℕ}
    {state : (grants P).State} {draws : (grants P).Draws} (hputs : Puts w w' i state)
    (hwrites : writes w'.log = (i, draws) :: writes w.log) (hash : String) :
    redemptions w' hash =
        redemptions w hash + (if (entryOf w i).redeems hash = true then 1 else 0) ∧
      creations w' hash =
        creations w hash + (if (entryOf w i).creates hash draws = true then 1 else 0) := by
  rw [redemptions, creations, hwrites, List.countP_cons, List.countP_cons, hputs.entry]
  have hredeemed := count_step hw hstep fun entry _ => entry.redeems hash
  have hcreated := count_step hw hstep fun entry draws => entry.creates hash draws
  rw [hredeemed, hcreated]
  exact ⟨rfl, rfl⟩

/-- A code is redeemed no more often than it has been created, and while it is
there one redemption is left. -/
structure CodesCounted (files : StoreFiles (grants P)) (hash : String)
    (w : World (storeSystem (grants P) windows)) : Prop where
  count : redemptions w hash ≤ creations w hash + initially files hash
  spare : ∀ state : PersistedState, Current w state → HasCode hash state →
    redemptions w hash + 1 ≤ creations w hash + initially files hash

theorem CodesCounted.step {hash : String} (h : CodesCounted files hash w)
    (hw : Reachable (· = files) mayStart w) (hstep : Step mayStart w w') :
    CodesCounted files hash w' := by
  rcases writes_step hw hstep with ⟨hwrites, hquiet⟩ | ⟨i, state, draws, hputs, hdrawn, hwrites⟩
  · obtain ⟨hredeemed, hcreated⟩ := counts_same hw hstep hwrites hash
    constructor
    · rw [hredeemed, hcreated]
      exact h.count
    · intro state hcurrent hcode
      rw [hredeemed, hcreated]
      rcases current_step hw hstep hcurrent with hold | ⟨i, hputs⟩
      · exact h.spare state hold hcode
      · exact absurd hputs (hquiet i state)
  obtain ⟨hredeemed, hcreated⟩ := counts_put hw hstep hputs hwrites hash
  cases hentry : entryOf w i with
  | openStore =>
      rw [hentry] at hredeemed hcreated
      simp only [StoreEntry.redeems, StoreEntry.creates, Bool.false_eq_true, if_false,
        add_zero] at hredeemed hcreated
      constructor
      · rw [hredeemed, hcreated]
        exact h.count
      · intro found hcurrent hcode
        rw [hredeemed, hcreated]
        rcases current_step hw hstep hcurrent with hold | ⟨j, hputs'⟩
        · exact h.spare found hold hcode
        · -- the new state has no codes at all
          obtain rfl : state = found :=
            Option.some.inj (Option.some.inj (hputs.target.symm.trans hputs'.target))
          exact absurd hcode (not_hasCode (hputs.fresh_of_open hentry).2)
  | call asked =>
      obtain ⟨before, draws', hinside, hseen, hdrawn', hstate⟩ := hputs.onState hentry
      obtain rfl : draws = draws' := Option.some.inj (hdrawn.symm.trans hdrawn')
      obtain ⟨hredeems, hleft⟩ := code_of_onState hash hstate
      have hspare := h.spare before (.inr ⟨i, hinside, hseen, hputs.fresh⟩)
      have hcount := h.count
      rw [hentry] at hredeemed hcreated
      constructor
      · rw [hredeemed, hcreated]
        split
        case isTrue hredeems' =>
            have hleft := hspare (hredeems hredeems').1
            omega
        case isFalse => omega
      · intro found hcurrent hcode
        obtain rfl := hputs.current hw hstep hinside hcurrent
        rw [hredeemed, hcreated]
        have hnot : ¬ (StoreEntry.call asked).redeems hash = true := fun hredeems' =>
          (hredeems hredeems').2 hcode
        rw [if_neg hnot]
        rcases hleft hcode with hcreates | hold
        · rw [if_pos hcreates]
          omega
        · have hleft := hspare hold
          omega

theorem codesCounted_of_reachable (hw : Reachable (· = files) mayStart w) (hash : String) :
    CodesCounted files hash w := by
  refine Reachable.induction (P := fun w : World (storeSystem (grants P) windows) =>
    CodesCounted files hash w) hw ?_ ?_
  · rintro s rfl
    constructor
    · exact Nat.zero_le _
    · rintro state (htarget | ⟨i, hinside, -⟩) hcode
      · have hheld : initially s hash = 1 := by
          simp only [initially, show s.target = some (some state) from htarget]
          exact if_pos (Option.isSome_iff_ne_none.mpr hcode)
        rw [hheld]
        exact Nat.le_add_left _ _
      · cases hinside
  · exact fun w w' hw ih hstep => ih.step hw hstep

/-! ### Where codes come from -/

/-- A code was in the file at the beginning, or was created by a process that
has written. -/
def CodeFrom (files : StoreFiles (grants P)) (w : World (storeSystem (grants P) windows))
    (hash : String) (pairing : PairingRecord) : Prop :=
  (∃ first : PersistedState, files.target = some (some first) ∧
    first.pairings[hash]? = some pairing) ∨
    ∃ (j : ℕ) (call : (grants P).Call) (draws : StoreDraws), entryOf w j = .call call ∧
      (progresses w.log j).drawn = some draws ∧ (progresses w.log j).written ≠ none ∧
      call.val.createdPairing P draws = some (hash, pairing)

theorem CodeFrom.step {hash : String} {pairing : PairingRecord}
    (h : CodeFrom files w hash pairing) (hw : Reachable (· = files) mayStart w)
    (hstep : Step mayStart w w') : CodeFrom files w' hash pairing := by
  rcases h with hfirst | ⟨j, call, draws, hentry, hdrawn, hwritten, hcreates⟩
  · exact .inl hfirst
  · obtain ⟨hsame, _, hsameEntry⟩ := written_of_step hw hstep hwritten
    refine .inr ⟨j, call, draws, hsameEntry.trans hentry, ?_, ?_, hcreates⟩
    · exact (drawn_of_step hw hstep hdrawn).1
    · rwa [hsame]

/-- A code in a state in play has come from somewhere, with what it stands for. -/
theorem codeFrom_of_reachable (hw : Reachable (· = files) mayStart w) :
    ∀ (state : PersistedState) (hash : String) (pairing : PairingRecord), InPlay w state →
      state.pairings[hash]? = some pairing → CodeFrom files w hash pairing := by
  refine Reachable.induction (P := fun w : World (storeSystem (grants P) windows) =>
    ∀ (state : PersistedState) (hash : String) (pairing : PairingRecord), InPlay w state →
      state.pairings[hash]? = some pairing → CodeFrom files w hash pairing) hw ?_ ?_
  · rintro s rfl state hash pairing (htarget | ⟨i, hseen⟩) hget
    · exact .inl ⟨state, htarget, hget⟩
    · cases hseen
  intro w w' hw ih hstep state hash pairing hplay hget
  rcases inPlay_step hw hstep hplay with hplay | ⟨i, hputs⟩
  · exact (ih state hash pairing hplay hget).step hw hstep
  · cases hentry : entryOf w i with
    | openStore =>
        rw [(hputs.fresh_of_open hentry).2] at hget
        simp at hget
    | call call =>
        obtain ⟨before, draws, _, hseen, hdrawn, hstate⟩ := hputs.onState hentry
        rcases (GrantStoreCall.onState_evolves hstate).pairings hash pairing hget with
          hcreated | hfound
        · refine .inr ⟨i, call, draws, hputs.entry.trans hentry, ?_, ?_, hcreated⟩
          · exact (drawn_of_step hw hstep hdrawn).1
          · rw [hputs.written]
            simp
        · exact (ih before hash pairing (.inr ⟨i, hseen⟩) hfound).step hw hstep

/-! ### Redemptions that have written -/

/-- A process that has written is among those that have, with what it has made
of the state that it read. -/
theorem onState_of_written (hw : Reachable (· = files) mayStart w) :
    ∀ (i : ℕ) (call : (grants P).Call), entryOf w i = .call call →
      (progresses w.log i).written ≠ none →
      ∃ (before next : PersistedState) (draws : StoreDraws),
        (progresses w.log i).seen = some before ∧ (progresses w.log i).drawn = some draws ∧
          call.val.onState P draws before = .ok next ∧ (i, draws) ∈ writes w.log := by
  refine Reachable.induction (P := fun w : World (storeSystem (grants P) windows) =>
    ∀ (i : ℕ) (call : (grants P).Call), entryOf w i = .call call →
      (progresses w.log i).written ≠ none →
      ∃ (before next : PersistedState) (draws : StoreDraws),
        (progresses w.log i).seen = some before ∧ (progresses w.log i).drawn = some draws ∧
          call.val.onState P draws before = .ok next ∧ (i, draws) ∈ writes w.log) hw ?_ ?_
  · rintro s - i call - hwritten
    exact absurd rfl hwritten
  intro w w' hw ih hstep i call hentry hwritten
  have hwrites := writes_step hw hstep
  rcases written_cases hw hstep hwritten with hold | ⟨state, hputs⟩
  · obtain ⟨_, hseenSame, hentrySame⟩ := written_of_step hw hstep hold
    obtain ⟨before, next, draws, hseen, hdrawn, hstate, hmem⟩ :=
      ih i call (hentrySame.symm.trans hentry) hold
    refine ⟨before, next, draws, hseenSame.trans hseen,
      (drawn_of_step hw hstep hdrawn).1, hstate, ?_⟩
    rcases hwrites with ⟨hsame, _⟩ | ⟨j, _, _, _, _, hmore⟩
    · rwa [hsame]
    · rw [hmore]
      exact List.mem_cons_of_mem _ hmem
  · obtain ⟨before, draws, _, hseen, hdrawn, hstate⟩ :=
      hputs.onState (hputs.entry.symm.trans hentry)
    refine ⟨before, state, draws, hputs.seen.trans hseen,
      (drawn_of_step hw hstep hdrawn).1, hstate, ?_⟩
    rcases hwrites with ⟨_, hquiet⟩ | ⟨j, found, draws', hputs', hdrawn', hmore⟩
    · exact absurd hputs (hquiet i state)
    · obtain rfl := hputs.unique hw hstep hputs'
      obtain rfl : draws = draws' := Option.some.inj (hdrawn.symm.trans hdrawn')
      rw [hmore]
      exact List.mem_cons_self

/-- A process has yielded a grant for the code with this hash. -/
def RedeemsCode (w : World (storeSystem (grants P) windows)) (i : ℕ) (hash : String) : Prop :=
  (entryOf w i).redeems hash = true ∧ (progresses w.log i).written ≠ none

/-- A redemption that has written is counted. -/
theorem RedeemsCode.mem {i : ℕ} {hash : String} (h : RedeemsCode w i hash)
    (hw : Reachable (· = files) mayStart w) :
    ∃ draws, (i, draws) ∈ (writes w.log).filter fun op => (entryOf w op.1).redeems hash := by
  cases hentry : entryOf w i with
  | openStore =>
      rw [RedeemsCode, hentry] at h
      exact absurd h.1 Bool.false_ne_true
  | call call =>
      obtain ⟨_, _, draws, _, _, _, hmem⟩ := onState_of_written hw i call hentry h.2
      exact ⟨draws, List.mem_filter.mpr ⟨hmem, h.1⟩⟩

theorem eq_of_mem_of_length_le_one {α : Type} {l : List α} (hl : l.length ≤ 1) {a b : α}
    (ha : a ∈ l) (hb : b ∈ l) : a = b := by
  match l with
  | [x] => rw [List.mem_singleton.mp ha, List.mem_singleton.mp hb]
  | _ :: _ :: _ =>
      rw [List.length_cons, List.length_cons] at hl
      omega

/-- Each code yields no more grants than it has been created: one, if it is
created once. None is yielded at its expiry or after it, and a redemption that
fails yields none. -/
theorem codes_used_once (hw : Reachable (· = files) anyEntry w) (hash : String) :
    redemptions w hash ≤ creations w hash + initially files hash ∧
      (creations w hash + initially files hash ≤ 1 →
        ∀ i j, RedeemsCode w i hash → RedeemsCode w j hash → i = j) ∧
      (∀ (i : ℕ) (call : (grants P).Call) (code actorId : String) (now : ℕ),
        entryOf w i = .call call → call.val = .redeemPairing code actorId now →
        GrantStore.tokenHashHex P code = hash → RedeemsCode w i hash →
        ∃ pairing, CodeFrom files w hash pairing ∧ now < pairing.expiresAtUnixMs) ∧
      ∀ (i : ℕ) (c : Call (storeSystem (grants P) windows)) (e : AuthError),
        w.calls i = some c → c.entry.redeems hash = true → c.rest = some (.done (.error e)) →
        ¬ RedeemsCode w i hash ∧
          ∀ (state : PersistedState) (tokenHash : String) (record : GrantRecord),
            InPlay w state → state.grants[tokenHash]? = some record →
            (∃ (first : PersistedState) (record : GrantRecord), files.target = some (some first) ∧
              first.grants[tokenHash]? = some record) ∨
            ∃ j, j ≠ i ∧ IssuesToken w j tokenHash ∧ (progresses w.log j).written ≠ none := by
  have hcounted := codesCounted_of_reachable hw hash
  refine ⟨hcounted.count, ?_, ?_, ?_⟩
  · intro honce i j hi hj
    obtain ⟨draws, hmem⟩ := hi.mem hw
    obtain ⟨draws', hmem'⟩ := hj.mem hw
    have hlength := hcounted.count.trans honce
    rw [redemptions, List.countP_eq_length_filter] at hlength
    exact congrArg Prod.fst (eq_of_mem_of_length_le_one hlength hmem hmem')
  · rintro i call code actorId now hentry hcall rfl ⟨_, hwritten⟩
    obtain ⟨before, next, draws, hseen, _, hstate, _⟩ :=
      onState_of_written hw i call hentry hwritten
    rw [hcall] at hstate
    obtain ⟨⟨pairing, hget, hfresh⟩, _⟩ := redeemPairing_onState hstate
    exact ⟨pairing, codeFrom_of_reachable hw before _ pairing (.inr ⟨i, hseen⟩) hget, hfresh⟩
  · intro i c e hc _ hreturned
    have hnone := written_of_error hw hc hreturned
    refine ⟨fun h => h.2 hnone, fun state tokenHash record hplay hget => ?_⟩
    rcases originates_of_reachable hw state tokenHash record hplay hget with
      hfirst | ⟨j, hissues, hwritten⟩
    · exact .inl hfirst
    · refine .inr ⟨j, ?_, hissues, hwritten⟩
      rintro rfl
      exact hwritten hnone

/-! ### Two handles redeem one code -/

namespace CodeSample

open RevocationSample (draws)

def pairing : PairingRecord where
  pairingId := "p"
  scopes := {"files.read"}
  createdAtUnixMs := 0
  expiresAtUnixMs := 1000
  grantTtlMs := 1000

/-- The hash of the code. -/
def codeHash : String := "e3b98a4da31a127d4bde6e43033f66ba274cab0eb7eb1c70ec41402bf6273dd8"

def state : PersistedState where
  version := 1
  deviceId := "d"
  pairings := (∅ : Std.ExtTreeMap String PairingRecord).insert codeHash pairing

def fileOfOne : StoreFiles (grants reference) := ⟨some (some state), false, fun _ => none⟩

def redeem : (grants reference).Call := ⟨.redeemPairing "t" "a" 1, nofun⟩

/-- The second handle finds the lock file of the first. -/
def raced : World (storeSystem (grants reference) true) :=
  ((((initial (S := storeSystem (grants reference) true) fileOfOne).start 0
    (StoreEntry.call redeem)).start 1 (StoreEntry.call redeem)).ticks (workingFiles draws 0)
      [0, 1, 0, 1, 0, 0, 0, 0, 0, 0, 0]).ticks (workingFiles draws 1) [1, 1, 1, 1]

theorem raced_reachable : Reachable (· = fileOfOne) anyEntry raced := by
  have hempty : Reachable (· = fileOfOne) anyEntry
      (initial (S := storeSystem (grants reference) true) fileOfOne) := reachable_initial rfl
  exact (((hempty.start rfl trivial).start rfl trivial).ticks (workingFiles_sound _ _) _).ticks
    (workingFiles_sound _ _) _

theorem creations_raced : creations raced codeHash + initially fileOfOne codeHash = 1 := by
  decide +kernel

end CodeSample

open CodeSample in
/-- One of the two redemptions writes, and no other does. -/
theorem codes_used_once_raced : redemptions raced codeHash = 1 ∧
    ∀ i j, RedeemsCode raced i codeHash → RedeemsCode raced j codeHash → i = j :=
  ⟨by decide +kernel, (codes_used_once raced_reachable codeHash).2.1 creations_raced.le⟩

end VorCommander
