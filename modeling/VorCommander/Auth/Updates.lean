import VorCommander.Auth.StateSteps
import VorCommander.Auth.Stores

/-!
Whether updates are lost.

While every process that puts a state in place holds the lock, or finds no
file, the file is at every moment what the operations make of it one after
another, in the order in which they put their states in place. So an update
is there until a later one removes it. Opening a store does not hold the lock.
-/

namespace VorCommander

open Crypto Steps Steps.Program Steps.World

variable {S : Store}

/-! ### One operation after another -/

/-- The file after an operation that nobody else disturbs. -/
def StoreEntry.effect (entry : StoreEntry S) (draws : S.Draws) (file : Option (Option S.State)) :
    Option (Option S.State) :=
  match entry with
  | .openStore => some (file.getD (some (S.fresh draws)))
  | .call asked =>
      match S.task asked, file with
      | .change mutate, some (some before) =>
          match mutate draws before with
          | .ok changed => some (some changed.2)
          | .error _ => file
      | _, _ => file

/-- The file after some operations, the last of which is the first of the
list, each with the number of its process and what it drew. -/
def replay (entry : ℕ → StoreEntry S) (file : Option (Option S.State)) :
    List (ℕ × S.Draws) → Option (Option S.State)
  | [] => file
  | (i, draws) :: earlier => (entry i).effect draws (replay entry file earlier)

theorem replay_append (entry : ℕ → StoreEntry S) (file : Option (Option S.State))
    (later earlier : List (ℕ × S.Draws)) :
    replay entry file (later ++ earlier) = replay entry (replay entry file earlier) later := by
  induction later with
  | nil => rfl
  | cons op later ih => rw [List.cons_append, replay, replay, ih]

/-- Only the operations that are replayed matter. -/
theorem replay_congr {entry entry' : ℕ → StoreEntry S} {file : Option (Option S.State)}
    {ops : List (ℕ × S.Draws)} (h : ∀ op ∈ ops, entry op.1 = entry' op.1) :
    replay entry file ops = replay entry' file ops := by
  induction ops with
  | nil => rfl
  | cons op earlier ih =>
      rw [List.forall_mem_cons] at h
      rw [replay, replay, h.1, ih h.2]

/-! ### When opens write -/

/-- A process that puts a state in place without the lock, as opening does,
finds no file there: there was none at the beginning, and nobody has written
one yet. -/
def OpensFindNoFile (s : StoreFiles S) (log : Log (StateFile S)) : Prop :=
  ∀ later i e earlier, log = later ++ (i, e) :: earlier → replaces e = true →
    (progresses earlier i).inside = false → s.target = none ∧ writes earlier = []

theorem OpensFindNoFile.suffix {s : StoreFiles S} (later : Log (StateFile S))
    {log : Log (StateFile S)} (h : OpensFindNoFile s (later ++ log)) : OpensFindNoFile s log := by
  intro later' i e earlier hlog
  exact h (later ++ later') i e earlier (by rw [hlog, List.append_assoc])

/-! ### Runs on Windows -/

section Runs

variable {windows : Bool} {init : StoreFiles S → Prop}
  {mayStart : World (storeSystem S windows) → StoreEntry S → Prop}
  {w w' : World (storeSystem S windows)}

/-- A step does not change what the operations so far amount to. -/
theorem replay_step (hw : Reachable init mayStart w) (hstep : Step mayStart w w')
    (file : Option (Option S.State)) (more : List (ℕ × S.Draws)) {ops : List (ℕ × S.Draws)}
    (hops : writes w.log = more ++ ops) :
    replay (entryOf w') file ops = replay (entryOf w) file ops := by
  refine replay_congr fun op hop => ?_
  obtain ⟨e, he⟩ := mem_of_mem_writes (show op ∈ writes w.log by
    rw [hops]
    exact List.mem_append_right _ hop)
  obtain ⟨c, hc⟩ := hw.consistent.started _ e he
  exact entryOf_step hstep hc

/-- The file is what the operations make of it one after another, and every
process that holds the lock works on what is in it. -/
structure Sequential (start : Option (Option S.State)) (w : World (storeSystem S windows)) :
    Prop where
  content : w.shared.target = replay (entryOf w) start (writes w.log)
  current : ∀ i state, (progresses w.log i).inside = true →
    (progresses w.log i).seen = some state → (progresses w.log i).written = none →
      w.shared.target = some (some state)
  reads : ∀ later i state earlier, w.log = later ++ (i, ⟨.read, .ok state⟩) :: earlier →
    replay (entryOf w) start (writes earlier) = some (some state)
  written : ∀ i next, (progresses w.log i).written = some next →
    ∃ since draws earlier, writes w.log = since ++ (i, draws) :: earlier ∧
      (progresses w.log i).drawn = some draws ∧
      (∀ before, (progresses w.log i).seen = some before →
        replay (entryOf w) start earlier = some (some before)) ∧
      replay (entryOf w) start ((i, draws) :: earlier) = some (some next)

/-- What was read is what the operations amounted to. -/
theorem Sequential.read_before {start : Option (Option S.State)} (h : Sequential start w)
    (hw : Reachable init mayStart w) (hstep : Step mayStart w w')
    {later earlier : Log (StateFile S)}
    {i : ℕ} {state : S.State} (hsplit : w.log = later ++ (i, ⟨.read, .ok state⟩) :: earlier) :
    replay (entryOf w') start (writes earlier) = some (some state) := by
  obtain ⟨more, hmore⟩ := writes_append (later ++ [(i, ⟨.read, .ok state⟩)]) earlier
  rw [List.append_assoc, List.singleton_append, ← hsplit] at hmore
  rw [replay_step hw hstep start _ hmore]
  exact h.reads later i state earlier hsplit

/-- Starting a call, or ending one, is not seen in the file. -/
theorem Sequential.idle {start : Option (Option S.State)} (h : Sequential start w)
    (hw : Reachable init mayStart w) (hstep : Step mayStart w w') (hlog : w'.log = w.log)
    (hshared : w'.shared = w.shared) : Sequential start w' where
  content := by
    rw [hlog, hshared, h.content]
    exact (replay_step hw hstep start [] rfl).symm
  current := by
    rw [hlog, hshared]
    exact h.current
  reads later i state earlier hsplit := by
    rw [hlog] at hsplit
    exact h.read_before hw hstep hsplit
  written i next hwritten := by
    rw [hlog] at hwritten ⊢
    obtain ⟨since, draws, earlier, hwrites, hdrawn, hseen, hnext⟩ := h.written i next hwritten
    refine ⟨since, draws, earlier, hwrites, hdrawn, fun before hbefore => ?_, ?_⟩
    · rw [List.append_cons] at hwrites
      rw [replay_step hw hstep start _ hwrites]
      exact hseen before hbefore
    · rw [replay_step hw hstep start _ hwrites]
      exact hnext

/-- A step that puts nothing in place. -/
theorem Sequential.same {start : Option (Option S.State)} (h : Sequential start w)
    (hw : Reachable init mayStart w) (hstep : Step mayStart w w') {i : ℕ} {entry : StoreEntry S}
    {e : Event (StateFile S)} (hlog : w'.log = (i, e) :: w.log)
    (hguarantee : (progresses w.log i).Guarantees windows entry e.op)
    (hcommit : w.shared.Commit e w'.shared) (hsame : w'.shared.target = w.shared.target)
    (hreplaces : replaces e = false)
    (hwritten : ((progresses w.log i).after e).written = (progresses w.log i).written) :
    Sequential start w' := by
  have hwrites : writes w'.log = writes w.log := by
    rw [hlog, writes, hreplaces]
  have hother : ∀ j, j ≠ i → progresses w'.log j = progresses w.log j := by
    intro j hj
    rw [hlog, progresses_cons, Function.update_of_ne hj]
  have hself : progresses w'.log i = (progresses w.log i).after e := by
    rw [hlog, progresses_cons, Function.update_self]
  constructor
  · rw [hwrites, hsame, h.content]
    exact (replay_step hw hstep start [] rfl).symm
  · intro j state hinside hseen hfresh
    rw [hsame]
    by_cases hj : j = i
    · subst hj
      rw [hself] at hinside hseen hfresh
      rcases inside_step hguarantee hcommit hinside with hwas | ⟨_, henters, _⟩
      · rcases seen_step hguarantee hcommit with hold | ⟨found, _, htarget, _, _, hread⟩
        · exact h.current j state hwas (hold ▸ hseen) (hwritten ▸ hfresh)
        · rw [hread] at hseen
          rw [htarget, Option.some.inj hseen]
      · rw [henters] at hseen
        cases hseen
    · rw [hother j hj] at hinside hseen hfresh
      exact h.current j state hinside hseen hfresh
  · intro later j state earlier hsplit
    rw [hlog] at hsplit
    cases later with
    | nil =>
        -- the state that is read is the content of the file
        obtain ⟨hhead, rfl⟩ := List.cons.inj hsplit
        obtain ⟨rfl, rfl⟩ := Prod.mk.inj hhead
        rw [replay_step hw hstep start [] rfl, ← h.content]
        exact hcommit.2
    | cons entry later =>
        obtain ⟨_, hsplit⟩ := List.cons.inj hsplit
        exact h.read_before hw hstep hsplit
  · intro j next hnext
    have hold : (progresses w.log j).written = some next ∧
        (progresses w'.log j).seen = (progresses w.log j).seen ∧
        (progresses w'.log j).drawn = (progresses w.log j).drawn := by
      by_cases hj : j = i
      · subst hj
        rw [hself] at hnext ⊢
        rw [hwritten] at hnext
        exact ⟨hnext, written_step hguarantee (by rw [hnext]; simp)⟩
      · rw [hother j hj] at hnext ⊢
        exact ⟨hnext, rfl, rfl⟩
    obtain ⟨since, draws, earlier, hsplit, hdrawn, hseen, hafter⟩ := h.written j next hold.1
    refine ⟨since, draws, earlier, hwrites.trans hsplit, hold.2.2.trans hdrawn, ?_, ?_⟩
    · intro before hbefore
      rw [hold.2.1] at hbefore
      rw [List.append_cons] at hsplit
      rw [replay_step hw hstep start _ hsplit]
      exact hseen before hbefore
    · rw [replay_step hw hstep start _ hsplit]
      exact hafter

/-- A step that puts a state in place which is what the operation makes of the
file. -/
theorem Sequential.replaced {start : Option (Option S.State)} (h : Sequential start w)
    (hw : Reachable init mayStart w) (hstep : Step mayStart w w') {i : ℕ}
    {e : Event (StateFile S)} (hlog : w'.log = (i, e) :: w.log) {state : S.State} {draws : S.Draws}
    (htarget : w'.shared.target = some (some state)) (hreplaces : replaces e = true)
    (hafter : (progresses w.log i).after e =
      { progresses w.log i with temp := none, written := some state })
    (hdrawn : (progresses w.log i).drawn = some draws)
    (heffect : (entryOf w' i).effect draws w.shared.target = some (some state))
    (hseen : ∀ before, (progresses w.log i).seen = some before →
      w.shared.target = some (some before))
    (halone : ∀ j state, j ≠ i → (progresses w.log j).inside = true →
      (progresses w.log j).seen = some state → (progresses w.log j).written ≠ none) :
    Sequential start w' := by
  have hwrites : writes w'.log = (i, draws) :: writes w.log := by
    rw [hlog, writes, hreplaces, hdrawn]
  have hother : ∀ j, j ≠ i → progresses w'.log j = progresses w.log j := by
    intro j hj
    rw [hlog, progresses_cons, Function.update_of_ne hj]
  have hself : progresses w'.log i =
      { progresses w.log i with temp := none, written := some state } := by
    rw [hlog, progresses_cons, Function.update_self, hafter]
  have hcontent : replay (entryOf w') start (writes w.log) = w.shared.target := by
    rw [h.content]
    exact replay_step hw hstep start [] rfl
  have hnext : replay (entryOf w') start ((i, draws) :: writes w.log) = some (some state) := by
    rw [replay, hcontent, heffect]
  constructor
  · rw [hwrites, hnext, htarget]
  · intro j found hinside hfound hfresh
    by_cases hj : j = i
    · subst hj
      rw [hself] at hfresh
      cases hfresh
    · rw [hother j hj] at hinside hfound hfresh
      exact absurd hfresh (halone j found hj hinside hfound)
  · intro later j found earlier hsplit
    rw [hlog] at hsplit
    cases later with
    | nil =>
        obtain ⟨hhead, rfl⟩ := List.cons.inj hsplit
        obtain ⟨rfl, rfl⟩ := Prod.mk.inj hhead
        cases hreplaces
    | cons entry later =>
        obtain ⟨_, hsplit⟩ := List.cons.inj hsplit
        exact h.read_before hw hstep hsplit
  · intro j next hwritten
    by_cases hj : j = i
    · subst hj
      rw [hself] at hwritten ⊢
      obtain rfl := Option.some.inj hwritten
      refine ⟨[], draws, writes w.log, hwrites, hdrawn, fun before hbefore => ?_, hnext⟩
      rw [hcontent]
      exact hseen before hbefore
    -- what another process wrote is followed by one more write
    · rw [hother j hj] at hwritten ⊢
      obtain ⟨since, draws', earlier, hsplit, hdrawn', hseen', hafter'⟩ := h.written j next hwritten
      refine ⟨(i, draws) :: since, draws', earlier, ?_, hdrawn', fun before hbefore => ?_, ?_⟩
      · rw [hwrites, hsplit, List.cons_append]
      · have hsplit' := hsplit
        rw [List.append_cons] at hsplit'
        rw [replay_step hw hstep start _ hsplit']
        exact hseen' before hbefore
      · rw [replay_step hw hstep start _ hsplit]
        exact hafter'

end Runs

section Windows

variable {files : StoreFiles S} {mayStart : World (storeSystem S true) → StoreEntry S → Prop}
  {w : World (storeSystem S true)}

/-- A process that holds the lock, or finds no file, makes of the file what its
operation makes of it. -/
theorem Sequential.commit (h : Sequential files.target w) (hw : Reachable (· = files) mayStart w)
    {i : ℕ} {c : Call (storeSystem S true)} {op : (StateFile S).Op}
    {next : (StateFile S).Reply op → Program (StateFile S) (storeSystem S true).Result}
    {reply : (StateFile S).Reply op} {s : StoreFiles S} (hc : w.calls i = some c)
    (hrest : c.rest = some (.step op next)) (hcommit : w.shared.Commit ⟨op, reply⟩ s)
    (hopens : OpensFindNoFile files ((i, ⟨op, reply⟩) :: w.log)) :
    Sequential files.target (w.commit i c ⟨op, reply⟩ (next reply) s) := by
  have hstep : Step mayStart w (w.commit i c ⟨op, reply⟩ (next reply) s) :=
    .commit hc hrest hcommit
  have hguarantee : (progresses w.log i).Guarantees true c.entry op :=
    hw.guarantee_next (Store.safe_body true) (hw.allowed fun _ _ _ _ _ => trivial) hc hrest
  have hkept := kept_of_reachable hw
  have hentry : entryOf (w.commit i c ⟨op, reply⟩ (next reply) s) i = c.entry := by
    rw [entryOf_step hstep hc, entryOf, hc]
  cases hkept.targetStep (e := ⟨op, reply⟩) hguarantee hcommit with
  | same hsame hreplaces hwritten =>
      exact h.same hw hstep rfl hguarantee hcommit hsame hreplaces hwritten
  | removed _ hwindows => cases hwindows
  | replaced state htarget hwritten hintends hafter hreplaces =>
      cases hop : c.entry with
      | openStore =>
          rw [hop] at hintends
          obtain ⟨hinside, hseen, draws, hdrawn, rfl⟩ := hintends
          obtain ⟨hnone, hnobody⟩ := hopens [] i _ w.log rfl hreplaces hinside
          -- nobody has written before, so there is nothing to have been read
          have hempty : w.shared.target = none := by rw [h.content, hnobody, replay, hnone]
          refine h.replaced hw hstep rfl htarget hreplaces hafter hdrawn ?_ ?_ ?_
          · rw [hentry, hop, hempty]
            rfl
          · intro before hbefore
            rw [hseen] at hbefore
            cases hbefore
          · intro j state _ hinside hfound hfresh
            have hcurrent := h.current j state hinside hfound hfresh
            rw [hempty] at hcurrent
            cases hcurrent
      | call call =>
          rw [hop] at hintends
          obtain ⟨hinside, mutate, before, draws, answer, htask, hseen, hdrawn, hmutate⟩ := hintends
          -- who holds the lock has read what is there now, and nobody else is inside
          have hcurrent := h.current i before hinside hseen hwritten
          refine h.replaced hw hstep rfl htarget hreplaces hafter hdrawn ?_ ?_ ?_
          · rw [hentry, hop, hcurrent]
            simp only [StoreEntry.effect, htask, hmutate]
          · intro before' hbefore'
            rw [hcurrent, ← hseen, hbefore']
          · intro j state hj hinside' _ _
            exact hj (hkept.alone j i hinside' hinside)

/-- The file is what the operations make of it, one after another. -/
theorem sequential_of_reachable (hw : Reachable (· = files) mayStart w)
    (hopens : OpensFindNoFile files w.log) : Sequential files.target w := by
  suffices h : OpensFindNoFile files w.log → Sequential files.target w from h hopens
  refine Reachable.induction (P := fun w => OpensFindNoFile files w.log → Sequential files.target w)
    hw ?_ ?_
  · rintro s rfl _
    exact ⟨rfl, by simp [progresses, initial], by simp [initial], by simp [progresses, initial]⟩
  intro w w' hw ih hstep hopens
  cases hstep with
  | @start i entry hfresh hmay =>
      exact (ih hopens).idle hw (.start hfresh hmay) rfl rfl
  | @crash i c hc => exact (ih hopens).idle hw (.crash hc) rfl rfl
  | @commit i c op next reply s hc hrest hcommit =>
      have hearlier : OpensFindNoFile files w.log := hopens.suffix [(i, ⟨op, reply⟩)]
      exact (ih hearlier).commit hw hc hrest hcommit hopens

/-- The log only grows, and no call changes its entry. -/
theorem grows_of_steps {w₁ w₂ : World (storeSystem S true)}
    (hsteps : Relation.ReflTransGen (Step mayStart) w₁ w₂) :
    (∃ later, w₂.log = later ++ w₁.log) ∧
      ∀ i c, w₁.calls i = some c → entryOf w₂ i = entryOf w₁ i ∧ ∃ c', w₂.calls i = some c' := by
  induction hsteps with
  | refl => exact ⟨⟨[], rfl⟩, fun i c hc => ⟨rfl, c, hc⟩⟩
  | tail _ hstep ih =>
      obtain ⟨⟨later, hlog⟩, hentries⟩ := ih
      constructor
      · cases hstep with
        | start _ _ => exact ⟨later, hlog⟩
        | crash _ => exact ⟨later, hlog⟩
        | @commit j c op next reply s _ _ _ =>
            refine ⟨(j, ⟨op, reply⟩) :: later, ?_⟩
            rw [World.commit, hlog]
            rfl
      · intro i c hc
        obtain ⟨hentry, c', hc'⟩ := hentries i c hc
        obtain ⟨c'', hc'', _⟩ := hstep.entry hc'
        exact ⟨(entryOf_step hstep hc').trans hentry, c'', hc''⟩

/-- A state that is read after a call has returned comes about from the state
that the call wrote, by the operations that have written since. -/
theorem update_present {w₁ w₂ : World (storeSystem S true)}
    (hw₁ : Reachable (· = files) mayStart w₁)
    (hsteps : Relation.ReflTransGen (Step mayStart) w₁ w₂) (hopens : OpensFindNoFile files w₂.log)
    {i : ℕ} {c : Call (storeSystem S true)} {call : S.Call}
    {mutate : S.Draws → S.State → Except AuthError (S.Answer × S.State)} {answer : S.Answer}
    (hc : w₁.calls i = some c) (hentry : c.entry = .call call)
    (htask : S.task call = .change mutate)
    (hreturned : c.rest = some (.done (.ok (.answered answer)))) {later between : Log (StateFile S)}
    {j : ℕ} {state : S.State}
    (hread : w₂.log = later ++ (j, ⟨.read, .ok state⟩) :: (between ++ w₁.log)) :
    ∃ before draws next since earlier, writes (between ++ w₁.log) = since ++ (i, draws) :: earlier ∧
      replay (entryOf w₂) files.target earlier = some (some before) ∧
      mutate draws before = .ok (answer, next) ∧
      replay (entryOf w₂) (some (some next)) since = some (some state) := by
  have hw₂ := hw₁.steps hsteps
  have hopens₁ : OpensFindNoFile files w₁.log := by
    rw [hread, List.append_cons, ← List.append_assoc] at hopens
    exact hopens.suffix _
  have h₁ := sequential_of_reachable hw₁ hopens₁
  have h₂ := sequential_of_reachable hw₂ hopens
  -- the call has written what its task makes of what it read
  obtain ⟨before, draws, next, hseen, hdrawn, hmutate, hwritten⟩ :
      ∃ before draws next, (progresses w₁.log i).seen = some before ∧
        (progresses w₁.log i).drawn = some draws ∧ mutate draws before = .ok (answer, next) ∧
        (progresses w₁.log i).written = some next := by
    rcases outcome_of_returned hw₁ hc hentry hreturned with ⟨hdone, _⟩ | ⟨_, _, hquery, _⟩ |
      ⟨mutate', before, draws, next, hchange, hseen, hdrawn, hmutate, hwritten⟩
    · rw [htask] at hdone
      cases hdone
    · rw [htask] at hquery
      cases hquery
    · rw [htask] at hchange
      obtain rfl : mutate = mutate' := by injection hchange
      exact ⟨before, draws, next, hseen, hdrawn, hmutate, hwritten⟩
  obtain ⟨since, draws', earlier, hwrites, hdrawn', hbefore, hnext⟩ := h₁.written i next hwritten
  obtain rfl := Option.some.inj (hdrawn.symm.trans hdrawn')
  -- in the later world the same operations are replayed
  have hsame : ∀ more ops, writes w₁.log = more ++ ops →
      replay (entryOf w₂) files.target ops = replay (entryOf w₁) files.target ops := by
    intro more ops hops
    refine replay_congr fun op hop => ?_
    obtain ⟨e, he⟩ := mem_of_mem_writes (show op ∈ writes w₁.log by
      rw [hops]
      exact List.mem_append_right _ hop)
    obtain ⟨c', hc'⟩ := hw₁.consistent.started _ e he
    exact ((grows_of_steps hsteps).2 _ c' hc').1
  obtain ⟨more, hmore⟩ := writes_append between w₁.log
  refine ⟨before, draws, next, more ++ since, earlier, ?_, ?_, hmutate, ?_⟩
  · rw [hmore, hwrites, List.append_assoc]
  · rw [hsame (since ++ [(i, draws)]) earlier (by rw [hwrites, List.append_assoc]; rfl)]
    exact hbefore before hseen
  · have hread' := h₂.reads later j state (between ++ w₁.log) hread
    rw [hmore, hwrites, ← List.append_assoc, replay_append,
      hsame since ((i, draws) :: earlier) hwrites, hnext] at hread'
    exact hread'

end Windows

/-! ### Both stores -/

/-- What is read after a call has returned Ok is what the operations that have
written since make of the state that the call wrote. -/
def KeepsUpdates (S : Store) (condition : StoreFiles S → Log (StateFile S) → Prop) : Prop :=
  ∀ (files : StoreFiles S) (w₁ w₂ : World (storeSystem S true)),
    Reachable (· = files) anyEntry w₁ → Relation.ReflTransGen (Step anyEntry) w₁ w₂ →
    condition files w₂.log →
    ∀ (i : ℕ) (c : Call (storeSystem S true)) (call : S.Call)
      (mutate : S.Draws → S.State → Except AuthError (S.Answer × S.State)) (answer : S.Answer),
      w₁.calls i = some c → c.entry = .call call → S.task call = .change mutate →
      c.rest = some (.done (.ok (.answered answer))) →
      ∀ (later between : Log (StateFile S)) (j : ℕ) (state : S.State),
        w₂.log = later ++ (j, ⟨.read, .ok state⟩) :: (between ++ w₁.log) →
        ∃ before draws next since earlier,
          writes (between ++ w₁.log) = since ++ (i, draws) :: earlier ∧
          replay (entryOf w₂) files.target earlier = some (some before) ∧
          mutate draws before = .ok (answer, next) ∧
          replay (entryOf w₂) (some (some next)) since = some (some state)

/-- The call of `device_id`. -/
def askDeviceId (P : Primitives) : StoreEntry (grants P) := .call ⟨.deviceId, by simp⟩

/-- All handles report the same device. -/
def ReportsOneDevice (P : Primitives)
    (condition : StoreFiles (grants P) → Log (StateFile (grants P)) → Prop) : Prop :=
  ∀ (files : StoreFiles (grants P)) (w : World (storeSystem (grants P) true)),
    Reachable (· = files) anyEntry w → condition files w.log →
    ∀ (i j : ℕ) (c c' : Call (storeSystem (grants P) true)) (deviceId deviceId' : String),
      w.calls i = some c → w.calls j = some c' → c.entry = askDeviceId P →
        c'.entry = askDeviceId P →
      c.rest = some (.done (.ok (.answered (.device deviceId)))) →
      c'.rest = some (.done (.ok (.answered (.device deviceId')))) → deviceId = deviceId'

/-- What all calls keep, a replay keeps. -/
theorem replay_keeps {p : S.State → Prop} {entry : ℕ → StoreEntry S}
    (hkeeps : ∀ call mutate draws before answer next, S.task call = .change mutate →
      mutate draws before = .ok (answer, next) → p before → p next)
    {before : S.State} (hp : p before) (ops : List (ℕ × S.Draws)) :
    ∃ state, replay entry (some (some before)) ops = some (some state) ∧ p state := by
  induction ops with
  | nil => exact ⟨before, rfl, hp⟩
  | cons op ops ih =>
      obtain ⟨state, hstate, hkept⟩ := ih
      obtain ⟨i, draws⟩ := op
      rw [replay, hstate]
      cases hentry : entry i with
      | openStore => exact ⟨state, rfl, hkept⟩
      | call call =>
          simp only [StoreEntry.effect]
          cases htask : S.task call with
          | done result => exact ⟨state, rfl, hkept⟩
          | query answer => exact ⟨state, rfl, hkept⟩
          | change mutate =>
              cases hmutate : mutate draws state with
              | error e => exact ⟨state, by simp only [hmutate], hkept⟩
              | ok changed =>
                  refine ⟨changed.2, by simp only [hmutate], ?_⟩
                  exact hkeeps call mutate draws state changed.1 changed.2 htask hmutate hkept

/-- A question is answered from a state that was read. -/
theorem Sequential.of_query {start : Option (Option S.State)} {windows : Bool}
    {init : StoreFiles S → Prop} {mayStart : World (storeSystem S windows) → StoreEntry S → Prop}
    {w : World (storeSystem S windows)} (h : Sequential start w) (hw : Reachable init mayStart w)
    {i : ℕ} {c : Call (storeSystem S windows)} {call : S.Call}
    {query : S.State → Except AuthError S.Answer} {answer : S.Answer} (hc : w.calls i = some c)
    (hentry : c.entry = .call call) (htask : S.task call = .query query)
    (hreturned : c.rest = some (.done (.ok (.answered answer)))) :
    ∃ more ops state, writes w.log = more ++ ops ∧
      replay (entryOf w) start ops = some (some state) ∧ query state = .ok answer := by
  rcases outcome_of_returned hw hc hentry hreturned with ⟨hdone, _⟩ |
    ⟨query', state, hquery, hseen, hanswered, _⟩ | ⟨_, _, _, _, hchange, _⟩
  · rw [htask] at hdone
    cases hdone
  · rw [htask] at hquery
    obtain rfl : query = query' := by injection hquery
    have hread : (i, (⟨.read, .ok state⟩ : Event (StateFile S))) ∈ w.log :=
      Log.mem_of.mp (read_of_seen hseen)
    obtain ⟨later, earlier, hsplit⟩ := List.append_of_mem hread
    obtain ⟨more, hmore⟩ := writes_append (later ++ [(i, ⟨.read, .ok state⟩)]) earlier
    rw [List.append_assoc, List.singleton_append, ← hsplit] at hmore
    exact ⟨more, writes earlier, state, hmore, h.reads later i state earlier hsplit, hanswered⟩
  · rw [htask] at hchange
    cases hchange

/-- Two lists that end the same list: one of them ends the other. -/
theorem append_comparable {α : Type} {a b c d : List α} (h : a ++ b = c ++ d) :
    (∃ more, b = more ++ d) ∨ ∃ more, d = more ++ b := by
  rcases List.append_eq_append_iff.mp h with ⟨more, _, hb⟩ | ⟨more, _, hd⟩
  · exact .inl ⟨more, hb⟩
  · exact .inr ⟨more, hd⟩

theorem reportsOneDevice (P : Primitives) : ReportsOneDevice P OpensFindNoFile := by
  intro files w hw hopens i j c c' deviceId deviceId' hc hc' hentry hentry' hrest hrest'
  have h := sequential_of_reachable hw hopens
  obtain ⟨more, ops, state, hops, hstate, hdevice⟩ := h.of_query hw hc hentry rfl hrest
  obtain ⟨more', ops', state', hops', hstate', hdevice'⟩ := h.of_query hw hc' hentry' rfl hrest'
  have hname : ∀ (state : PersistedState) (id : String),
      (GrantStoreAnswer.device <$> GrantStore.deviceId state) = .ok (.device id) →
      state.deviceId = id := by
    intro state id hok
    obtain ⟨found, hfound, heq⟩ := map_eq_ok.mp hok
    obtain ⟨_, hread⟩ := GrantStore.readState_eq_ok_iff.mp hfound
    obtain rfl := Except.ok.inj hread
    injection heq
  have hkeeps : ∀ (name : String) (call : (grants P).Call)
      (mutate : StoreDraws → PersistedState → Except AuthError (GrantStoreAnswer × PersistedState))
      (draws : StoreDraws) (before : PersistedState) (answer : GrantStoreAnswer)
      (next : PersistedState), (grants P).task call = .change mutate →
      mutate draws before = .ok (answer, next) → before.deviceId = name → next.deviceId = name := by
    intro name call mutate draws before answer next htask hmutate hbefore
    rw [← hbefore]
    exact (GrantStoreCall.onState_evolves (GrantStoreCall.onState_of_task htask hmutate)).deviceId
  -- the later of the two states comes about from the earlier one
  have hordered : ∀ (since first : List (ℕ × (grants P).Draws)) (a b : (grants P).State),
      replay (entryOf w) files.target first = some (some a) →
      replay (entryOf w) files.target (since ++ first) = some (some b) →
      PersistedState.deviceId b = PersistedState.deviceId a := by
    intro since first a b ha hb
    rw [replay_append, ha] at hb
    have hkept : ∃ next, replay (entryOf w) (some (some a)) since = some (some next) ∧
        PersistedState.deviceId next = PersistedState.deviceId a :=
      replay_keeps (hkeeps (PersistedState.deviceId a)) rfl since
    obtain ⟨next, hnext, hsame⟩ := hkept
    obtain rfl : b = next := Option.some.inj (Option.some.inj (hb.symm.trans hnext))
    exact hsame
  rw [← hname state deviceId hdevice, ← hname state' deviceId' hdevice']
  rcases append_comparable (hops.symm.trans hops') with ⟨since, rfl⟩ | ⟨since, rfl⟩
  · exact hordered since ops' state' state hstate' hstate
  · exact (hordered since ops state state' hstate hstate').symm

/-- Neither store loses an update while every open that writes finds no file,
and all handles then report one device. -/
theorem updates_kept (P : Primitives) :
    KeepsUpdates (grants P) OpensFindNoFile ∧ KeepsUpdates tenants OpensFindNoFile ∧
      ReportsOneDevice P OpensFindNoFile := by
  refine ⟨?_, ?_, reportsOneDevice P⟩
  · intro files w₁ w₂ hw₁ hsteps hopens i c call mutate answer hc hentry htask hreturned later
      between j state hread
    exact update_present hw₁ hsteps hopens hc hentry htask hreturned hread
  · intro files w₁ w₂ hw₁ hsteps hopens i c call mutate answer hc hentry htask hreturned later
      between j state hread
    exact update_present hw₁ hsteps hopens hc hentry htask hreturned hread

/-! ### Two processes open a store that is not there -/

namespace UpdateSample

def draws (byte : UInt8) : StoreDraws where
  deviceId := Vector.replicate 16 byte
  tokenBytes := Vector.replicate 32 byte
  grantId := Vector.replicate 16 byte
  codeBytes := Vector.replicate 20 byte
  pairingId := Vector.replicate 16 byte

def noFile : StoreFiles (grants reference) := ⟨none, false, fun _ => none⟩

def register : (grants reference).Call := ⟨.registerOauthClient "c" ["u"] "n" 0, nofun⟩

/-- Two processes open the store; a client is registered, and the device is
asked for twice. -/
def started : World (storeSystem (grants reference) true) :=
  (((((initial (S := storeSystem (grants reference) true) noFile).start 0
    StoreEntry.openStore).start
    1 StoreEntry.openStore).start 2 (StoreEntry.call register)).start 3
      (askDeviceId reference)).start
      4 (askDeviceId reference)

def files (byte : UInt8) (temp : ℕ) :
    Handler (StateFile (grants reference)) (StoreFiles (grants reference)) :=
  workingFiles (draws byte) temp

theorem files_sound (byte : UInt8) (temp : ℕ) :
    (files byte temp).Sound (storeSystem (grants reference) true) :=
  workingFiles_sound _ _

/-- The first process finds no file and stops before it puts its own in place.
The second process does the same, but goes on; then the client is registered. -/
def registered : World (storeSystem (grants reference) true) :=
  (((started.ticks (files 1 0) [0, 0, 0, 0, 0, 0]).ticks (files 2 1) [1, 1, 1, 1, 1, 1, 1]).ticks
    (files 2 2) [2, 2, 2, 2, 2, 2, 2, 2, 2]).ticks (files 2 3) [3, 3, 3, 3]

/-- The first process goes on. -/
def overwritten : World (storeSystem (grants reference) true) :=
  (registered.ticks (files 1 0) [0]).ticks (files 2 3) [4, 4, 4, 4]

theorem started_reachable : Reachable (· = noFile) anyEntry started := by
  have hempty : Reachable (· = noFile) anyEntry
      (initial (S := storeSystem (grants reference) true) noFile) := reachable_initial rfl
  have hopening : Reachable (· = noFile) anyEntry
    (((initial (S := storeSystem (grants reference) true)
      noFile).start 0 StoreEntry.openStore).start 1 StoreEntry.openStore) :=
    (hempty.start rfl trivial).start rfl trivial
  exact ((hopening.start rfl trivial).start rfl trivial).start rfl trivial

theorem registered_reachable : Reachable (· = noFile) anyEntry registered :=
  (((started_reachable.ticks (files_sound 1 0) _).ticks (files_sound 2 1) _).ticks
    (files_sound 2 2) _).ticks (files_sound 2 3) _

theorem overwritten_steps :
    Relation.ReflTransGen (Step anyEntry) registered overwritten :=
  (ticks_steps (files_sound 1 0) _ _).trans (ticks_steps (files_sound 2 3) _ _)

/-- What has happened after the client was registered. -/
def between : Log (StateFile (grants reference)) :=
  [(4, ⟨.createLock, .created⟩), (4, ⟨.enter, .ok ()⟩), (0, ⟨.moveReplace 0, .ok ()⟩)]

theorem writes_between :
    writes (between ++ registered.log) = [(0, draws 1), (2, draws 2), (1, draws 2)] := rfl

theorem register_client {before next : PersistedState} {answer : GrantStoreAnswer}
    (h : answering .client (GrantStore.registerOauthClient "c" ["u"] "n" 0 before) =
      .ok (answer, next)) : next.oauthClients["c"]? ≠ none := by
  obtain ⟨record, hregister, _⟩ := GrantStoreCall.answering_eq_ok.mp h
  simp only [GrantStore.registerOauthClient, bind_eq_ok, GrantStore.mutateState_eq_ok_iff,
    Except.ok.injEq, Prod.mk.injEq] at hregister
  obtain ⟨_, _, _, _, rfl⟩ := hregister
  simp

end UpdateSample

open UpdateSample in
/-- The file of the first process takes the place of the one with the client,
and the device has another name. -/
theorem updates_lost :
    ¬ KeepsUpdates (grants reference) (fun _ _ => True) ∧
      ¬ ReportsOneDevice reference (fun _ _ => True) := by
  constructor
  · intro hkeeps
    obtain ⟨before, drawn, next, since, earlier, hwrites, _, hmutate, hreplay⟩ :=
      hkeeps noFile registered overwritten registered_reachable overwritten_steps trivial 2 _
        register _ _ rfl rfl rfl rfl [(4, ⟨.removeLock, ()⟩)] between 4 _ rfl
    rw [writes_between] at hwrites
    have hclient := register_client hmutate
    -- the first process is the only one that has written since
    rcases since with _ | ⟨first, _ | ⟨second, rest⟩⟩
    · exact absurd (congrArg Prod.fst (List.cons.inj hwrites).1) (show (0 : ℕ) ≠ 2 by decide)
    · obtain rfl := (List.cons.inj hwrites).1
      obtain rfl := Option.some.inj (Option.some.inj hreplay)
      exact hclient rfl
    · have hrest := (List.cons.inj (List.cons.inj hwrites).2).2
      rcases rest with _ | ⟨third, rest⟩
      · exact absurd (congrArg Prod.fst (List.cons.inj hrest).1) (show (1 : ℕ) ≠ 2 by decide)
      · exact absurd (List.cons.inj hrest).2.symm
          (List.append_ne_nil_of_right_ne_nil rest (List.cons_ne_nil _ earlier))
  · intro hone
    have hreachable := registered_reachable.steps overwritten_steps
    have hsame := hone noFile overwritten hreachable trivial 3 4 _ _ _ _ rfl rfl rfl rfl rfl rfl
    exact absurd hsame (by decide)

end VorCommander
