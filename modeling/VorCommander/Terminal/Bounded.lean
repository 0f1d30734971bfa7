import VorCommander.Terminal.Console

/-!
What a bounded run leaves.

Whatever the process, the console and the clock do, a run comes to an end. It gives the
exit code of the process and all that the console has published, or it says why it has
ended the process. Only where a call of the system has failed a process may be left to the
closing of the console.
-/

namespace VorCommander

open Steps Steps.Program Text

/-! ### What calls do -/

namespace Console

variable {s s' s'' : Console}

/-- What happens to a console, whatever is called. -/
structure Grows (s s' : Console) : Prop where
  clock : s.clock ≤ s'.clock
  published : s.published <+: s'.published
  cancelled : s.cancelled = true → s'.cancelled = true
  faulty : s.faulty = true → s'.faulty = true
  present : s.process ≠ .absent → s'.process ≠ .absent
  ended : ∀ code, s.process = .ended code → s'.process = .ended code

theorem Grows.trans (h : s.Grows s') (h' : s'.Grows s'') : s.Grows s'' where
  clock := h.clock.trans h'.clock
  published := h.published.trans h'.published
  cancelled := h'.cancelled ∘ h.cancelled
  faulty := h'.faulty ∘ h.faulty
  present := h'.present ∘ h.present
  ended code := h'.ended code ∘ h.ended code

theorem Evolves.grows (h : s.Evolves s') : s.Grows s' where
  clock := h.clock
  published := h.published
  cancelled := h.cancelled
  faulty hs := h.faulty.trans hs
  present hs := by
    rcases h.process with hsame | ⟨-, code, hended⟩
    · rwa [hsame]
    · rw [hended]
      exact fun h => by cases h
  ended code hs := by
    rcases h.process with hsame | ⟨hrunning | hterminating, -⟩
    · rw [hsame, hs]
    · rw [hs] at hrunning
      cases hrunning
    · rw [hs] at hterminating
      cases hterminating

theorem grows_effect (s : Console) (op : ConsoleOp) (reply : op.Reply) :
    s.Grows (op.effect s reply) := by
  have hself : s.Grows s := ⟨le_rfl, List.prefix_rfl, id, id, id, fun _ => id⟩
  cases op with
  | isCancelled | now | sleep => exact hself
  | setUp | getExitCodeProcess =>
      cases reply with
      | error _ => exact { hself with faulty := fun _ => rfl }
      | ok _ => exact hself
  | peekNamedPipe =>
      cases reply with
      | error e => exact { hself with faulty := fun h => by simp [ConsoleOp.effect, h] }
      | ok _ => exact hself
  | readFile =>
      cases reply with
      | error e => exact { hself with faulty := fun h => by simp [ConsoleOp.effect, h] }
      | ok _ => exact { hself with }
  | createProcess =>
      cases reply with
      | error _ => exact { hself with faulty := fun _ => rfl }
      | ok _ =>
          exact { hself with
            present := fun h => by simp [ConsoleOp.effect, h]
            ended := fun code h => by simp [ConsoleOp.effect, h] }
  | terminateProcess =>
      cases reply with
      | error _ => exact { hself with faulty := fun _ => rfl }
      | ok _ =>
          exact { hself with
            present := fun h => by
              simp only [ConsoleOp.effect]
              split <;> simp_all
            ended := fun code h => by simp [ConsoleOp.effect, h] }

/-- The console keeps a condition, whatever happens. -/
def Lasting (P : Console → Prop) : Prop := ∀ s s', P s → s.Grows s' → P s'

/-- The worker has read this output, and a condition holds. -/
structure HasRead (output : List UInt8) (P : Console → Prop) (s : Console) : Prop where
  taken : s.taken = output
  published : output <+: s.published
  holds : P s

variable {e : Event Consoles} {P : Console → Prop} {output : List UInt8}

theorem Grows.of_commit (h : Consoles.Commit s e s') : s.Grows s' := by
  obtain ⟨found, hevolves, -, -, rfl⟩ := h
  exact hevolves.grows.trans (grows_effect ..)

/-- A call that does not read. -/
theorem HasRead.commit (hs : HasRead output P s) (hP : Lasting P) (h : Consoles.Commit s e s')
    (he : ∀ found, (e.op.effect found e.reply).taken = found.taken) : HasRead output P s' := by
  have hgrows := Grows.of_commit h
  obtain ⟨found, hevolves, -, -, rfl⟩ := h
  exact ⟨(he found).trans (hevolves.taken.trans hs.taken), hs.published.trans hgrows.published,
    hP _ _ hs.holds hgrows⟩

/-- Where nothing is left to read, all of it was read. -/
theorem HasRead.published_eq (hs : HasRead output P s) (hpending : s.pending = []) :
    s.published = output := by
  rw [pending, hs.taken, List.drop_eq_nil_iff] at hpending
  exact (hs.published.eq_of_length_le hpending).symm

end Console

open Console

namespace Worker

open ConPtySession

variable {s s' : Console} {P : Console → Prop} {output chunk : List UInt8} {spec : TerminalSpec}
  {start started n : ℕ}

/-- What a program does with a console, wherever it starts. -/
abbrev Does {α : Type} (before : Console → Prop) (p : Program Consoles α)
    (after : α → Console → Prop) : Prop :=
  Triple Consoles.Commit (fun _ => True) before p after

theorem does_call {α : Type} {op : ConsoleOp} {f : op.Reply → Except ℕ α}
    {fail : ℕ → TerminalError} {err : TerminalError → Console → Prop} {ok : α → Console → Prop}
    (h : ∀ s reply s', P s → Consoles.Commit s ⟨op, reply⟩ s' →
      either (fun e s => err (fail e) s) ok (f reply) s') :
    Does P (call fail (f <$> perform (I := Consoles) op)).run (either err ok) :=
  .adapt (.attempt (.map (.perform fun s reply s' hs hcommit =>
    ⟨trivial, h s reply s' hs hcommit⟩)))

/-! ### One look -/

/-- The worker reads what comes next, and nothing only if there is nothing. -/
theorem does_readAvailable (hP : Lasting P) : Does (HasRead output P) readAvailable.run
    (either (fun _ s => s.faulty = true) fun chunk s =>
      HasRead (output ++ chunk) P s ∧ (chunk = [] → s.published = output)) := by
  refine .exceptT_bind (M := fun available s =>
    HasRead output P s ∧ (available = 0 → s.published = output))
    (does_call fun s reply s' hs hcommit => ?_) fun available => ?_
  · cases reply with
    | ok available =>
        have hs' := hs.commit hP hcommit fun _ => rfl
        obtain ⟨found, -, -, hanswers, rfl⟩ := hcommit
        exact ⟨hs', fun h => hs'.published_eq (hanswers.2 h)⟩
    | error e =>
        have hs' := hs.commit hP hcommit fun _ => rfl
        obtain ⟨found, -, -, hanswers, rfl⟩ := hcommit
        by_cases hbroken : isBrokenPipe e = true
        · rw [orClosed, if_pos hbroken]
          exact ⟨hs', fun _ => hs'.published_eq (hanswers hbroken)⟩
        · rw [orClosed, if_neg hbroken]
          simp [ConsoleOp.effect, hbroken]
  · by_cases hnone : available = 0
    · rw [if_pos hnone]
      refine .pure fun s hs => ?_
      rw [List.append_nil]
      exact ⟨hs.1, fun _ => hs.2 hnone⟩
    · rw [if_neg hnone]
      refine does_call fun s reply s' hs hcommit => ?_
      have hgrows := Grows.of_commit hcommit
      cases reply with
      | error e =>
          have hs' := hs.1.commit hP hcommit fun _ => rfl
          obtain ⟨found, -, -, hanswers, rfl⟩ := hcommit
          by_cases hbroken : isBrokenPipe e = true
          · rw [orClosed, if_pos hbroken, either_ok, List.append_nil]
            exact ⟨hs', fun _ => hs'.published_eq (hanswers hbroken)⟩
          · rw [orClosed, if_neg hbroken]
            simp [ConsoleOp.effect, hbroken]
      | ok bytes =>
          obtain ⟨found, hevolves, -, hanswers, rfl⟩ := hcommit
          have htaken : found.taken = output := hevolves.taken.trans hs.1.taken
          obtain ⟨rest, hrest⟩ := hs.1.published.trans hevolves.published
          have hpending : found.pending = rest := by
            rw [Console.pending, htaken, ← hrest, List.drop_left]
          obtain ⟨hbytes, -, hnil⟩ := hanswers
          rw [hpending] at hbytes hnil
          have hpublished : output ++ bytes <+: found.published := by
            rw [← hrest]
            exact (List.prefix_append_right_inj output).mpr hbytes
          refine ⟨⟨congrArg (· ++ bytes) htaken, hpublished, hP _ _ hs.1.holds hgrows⟩, ?_⟩
          intro h
          change found.published = output
          rw [← hrest, hnil h, List.append_nil]

/-- The code of a process that has ended. -/
theorem does_exitCode (hP : Lasting P) (hpresent : ∀ s, P s → s.process ≠ .absent) :
    Does (HasRead output P) exitCode.run
      (either (fun _ s => s.faulty = true) fun exited s => HasRead output P s ∧
        ∀ code, exited = some code → s.process = .ended code ∧ code ≠ stillActive) := by
  refine .exceptT_bind (M := fun code s => HasRead output P s ∧
    (code ≠ stillActive → s.process = .ended code))
    (.adapt (.attempt (.perform fun s reply s' hs hcommit => ⟨trivial, ?_⟩))) fun code => ?_
  · cases reply with
    | error e =>
        obtain ⟨found, -, -, -, rfl⟩ := hcommit
        rfl
    | ok code =>
        have hs' := hs.commit hP hcommit fun _ => rfl
        obtain ⟨found, -, -, hanswers, rfl⟩ := hcommit
        refine ⟨hs', fun hcode => ?_⟩
        cases hprocess : s'.process with
        | absent => exact absurd hprocess (hpresent _ hs'.holds)
        | running | terminating =>
            simp only [ConsoleOp.answers, hprocess] at hanswers
            exact absurd hanswers hcode
        | ended exitCode =>
            simp only [ConsoleOp.answers, hprocess] at hanswers
            rw [hanswers]
  · by_cases hcode : code = stillActive
    · rw [if_pos hcode]
      exact .pure fun s hs => ⟨hs.1, fun _ h => by cases h⟩
    · rw [if_neg hcode]
      refine .pure fun s hs => ⟨hs.1, fun exited h => ?_⟩
      cases h
      exact ⟨hs.2 hcode, hcode⟩

/-- A process that is terminated does not run, or it ends. -/
theorem does_terminate {exitCode : ℕ} (hP : Lasting P) (hpresent : ∀ s, P s → s.process ≠ .absent) :
    Does (HasRead output P) (terminate exitCode).run
      (either (fun _ s => s.faulty = true) fun _ s => P s ∧ s.process ≠ .running) := by
  refine .exceptT_bind (does_exitCode hP hpresent) fun exited => ?_
  cases exited with
  | some code =>
      rw [if_pos Option.isSome_some]
      refine .pure fun s hs => ⟨hs.1.holds, fun h => ?_⟩
      rw [(hs.2 code rfl).1] at h
      cases h
  | none =>
      rw [if_neg (by simp)]
      refine .adapt (.attempt (.perform fun s reply s' hs hcommit => ⟨trivial, ?_⟩))
      cases reply with
      | error e =>
          obtain ⟨found, -, -, -, rfl⟩ := hcommit
          rfl
      | ok _ =>
          have hs' := hs.1.commit hP hcommit fun _ => rfl
          obtain ⟨found, -, -, -, rfl⟩ := hcommit
          refine ⟨hs'.holds, ?_⟩
          simp only [ConsoleOp.effect]
          split_ifs with hrunning
          · exact fun h => by cases h
          · exact hrunning

/-- The worker waits, and the clock goes on. -/
theorem does_pause {nanoseconds : ℕ} {err : TerminalError → Console → Prop} (hP : Lasting P)
    (earliest : ℕ) :
    Does (fun s => HasRead output P s ∧ earliest ≤ s.clock) (pause nanoseconds).run
      (either err fun _ s => HasRead output P s ∧ earliest + nanoseconds ≤ s.clock) := by
  refine .lift (.perform fun s reply s' hs hcommit =>
    ⟨trivial, hs.1.commit hP hcommit fun _ => rfl, ?_⟩)
  obtain ⟨found, -, hclock, -, rfl⟩ := hcommit
  exact (Nat.add_le_add_right hs.2 nanoseconds).trans hclock

/-! ### Why a run fails -/

/-- Why the worker has ended a process that was started after a moment. -/
def Reason (spec : TerminalSpec) (start : ℕ) (s : Console) : TerminalError → Prop
  | .cancelled => s.cancelled = true
  | .timeout timeoutMs =>
      timeoutMs = spec.timeoutMs ∧ start + milliseconds timeoutMs ≤ s.clock
  | .outputLimitExceeded limit => limit = spec.maxOutputBytes ∧ limit < s.published.length
  | .other _ => True

/-- What a run that has failed leaves: a call of the system has failed, or there is no
process, or it has ended or is to end. -/
def Stopped (spec : TerminalSpec) (start : ℕ) (e : TerminalError) (s : Console) : Prop :=
  s.faulty = true ∨ s.process = .absent ∨ s.process ≠ .running ∧ Reason spec start s e

theorem does_stopWith {α : Type} {exitCode : ℕ} {e : TerminalError} {ok : α → Console → Prop}
    (output : List UInt8) (hP : Lasting P) (hpresent : ∀ s, P s → s.process ≠ .absent)
    (hreason : ∀ s, P s → Reason spec start s e) :
    Does (HasRead output P) (stopWith exitCode e : ConsoleM α).run
      (either (Stopped spec start) ok) :=
  .exceptT_bind ((does_terminate hP hpresent).relax (fun _ _ h => .inl h) fun _ _ h => h)
    fun _ => .throw fun s hs => .inr (.inr ⟨hs.2, hreason s hs.1⟩)

theorem does_appendOutput (hP : Lasting P) (hpresent : ∀ s, P s → s.process ≠ .absent) :
    Does (HasRead (output ++ chunk) P) (appendOutput output chunk spec.maxOutputBytes).run
      (either (Stopped spec start) fun kept s => kept = output ++ chunk ∧
        kept.length ≤ spec.maxOutputBytes ∧ HasRead kept P s) := by
  rw [appendOutput]
  split_ifs with hlimit
  · refine (does_stopWith (P := fun s => P s ∧ spec.maxOutputBytes < s.published.length)
      (output ++ chunk) (fun s s' hs hgrows =>
        ⟨hP _ _ hs.1 hgrows, hs.2.trans_le hgrows.published.length_le⟩)
      (fun s hs => hpresent s hs.1) ?_).mono (fun s hs => ?_) fun _ _ h => h
    · exact fun s hs => ⟨rfl, hs.2⟩
    · rw [← List.length_append] at hlimit
      exact ⟨hs.taken, hs.published, hs.holds, hlimit.trans_le hs.published.length_le⟩
  · refine .pure fun s hs => ⟨rfl, ?_, hs⟩
    rw [List.length_append]
    omega

/-! ### The process has ended -/

/-- The rest of the output is kept, by induction on the looks that are left. -/
theorem does_drainOutput {code : ℕ} (left emptyReads : ℕ)
    (hlength : output.length ≤ spec.maxOutputBytes) :
    Does (HasRead output fun s => s.process = .ended code)
      (drainOutput spec.maxOutputBytes left emptyReads output).run
      (either (Stopped spec start) fun kept s => kept.length ≤ spec.maxOutputBytes ∧
        kept = s.published ∧ s.process = .ended code) := by
  have hP : Lasting fun s => s.process = .ended code := fun s s' hs hgrows => hgrows.ended code hs
  have hpresent (s : Console) (hs : s.process = .ended code) : s.process ≠ .absent := by
    rw [hs]
    exact fun h => by cases h
  induction left generalizing emptyReads output with
  | zero =>
      refine .throw fun s hs => .inr (.inr ⟨?_, trivial⟩)
      rw [hs.holds]
      exact fun h => by cases h
  | succ left ih =>
      rw [drainOutput]
      refine .exceptT_bind ((does_readAvailable hP).relax (fun _ _ h => .inl h) fun _ _ h => h)
        fun chunk => ?_
      by_cases hchunk : chunk = []
      · rw [if_pos hchunk]
        split_ifs
        · exact .pure fun s hs => ⟨hlength, (hs.2 hchunk).symm, hs.1.holds⟩
        · refine .exceptT_bind ((does_pause hP 0).mono (fun s hs => ?_)
            fun _ _ h => h) fun _ => (ih _ hlength).mono (fun s hs => hs.1) fun _ _ h => h
          rw [hchunk, List.append_nil] at hs
          exact ⟨hs.1, Nat.zero_le _⟩
      · rw [if_neg hchunk]
        refine .exceptT_bind ((does_appendOutput hP hpresent).mono (fun s hs => hs.1)
          fun _ _ h => h) fun kept => ?_
        exact .of_pure fun _ => .of_pure fun hkept => ih _ hkept

/-! ### The loop -/

/-- The process was started, and so many rounds are enough until the time is over. -/
structure Within (spec : TerminalSpec) (started n : ℕ) (s : Console) : Prop where
  present : s.process ≠ .absent
  begun : started ≤ s.clock
  bound : started + milliseconds spec.timeoutMs ≤ s.clock + milliseconds (10 * n)

theorem lasting_within : Lasting (Within spec started n) := fun _ _ hs hgrows =>
  ⟨hgrows.present hs.present, hs.begun.trans hgrows.clock,
    hs.bound.trans (Nat.add_le_add_right hgrows.clock _)⟩

/-- What a run gives: the code of the process, and all that was published. -/
def Finished (spec : TerminalSpec) : Option TerminalRunResult → Console → Prop
  | some result, s => s.process = .ended result.exitCode ∧ result.exitCode ≠ stillActive ∧
      result.output = s.published ∧ result.output.length ≤ spec.maxOutputBytes
  | none, _ => False

/-- One round. If it does not end the run, time is left, and it takes some of it. -/
theorem does_round (hstart : start ≤ started)
    (hrest : 0 < n → ∀ output,
      Does (HasRead output (Within spec started (n - 1)))
        (pollProcess spec started n output).run (either (Stopped spec start) (Finished spec))) :
    Does (HasRead output (Within spec started n)) (pollProcess spec started (n + 1) output).run
      (either (Stopped spec start) (Finished spec)) := by
  have hP : Lasting (Within spec started n) := lasting_within
  have hpresent (s : Console) (hs : Within spec started n s) : s.process ≠ .absent := hs.present
  rw [pollProcess]
  refine .exceptT_bind (M := fun cancelled s => HasRead output (Within spec started n) s ∧
    (cancelled = true → s.cancelled = true)) (.lift (.perform fun s reply s' hs hcommit =>
      ⟨trivial, hs.commit hP hcommit fun _ => rfl, fun h => ?_⟩)) fun cancelled => ?_
  · obtain ⟨found, -, -, hanswers, rfl⟩ := hcommit
    exact hanswers.symm.trans h
  by_cases hcancelled : cancelled = true
  · rw [if_pos hcancelled]
    refine (does_stopWith (P := fun s => s.process ≠ .absent ∧ s.cancelled = true) output
      (fun s s' hs hgrows => ⟨hgrows.present hs.1, hgrows.cancelled hs.2⟩) (fun s hs => hs.1)
      ?_).mono (fun s hs => ?_) fun _ _ h => h
    · exact fun s hs => hs.2
    · exact ⟨hs.1.taken, hs.1.published, hs.1.holds.present, hs.2 hcancelled⟩
  rw [if_neg hcancelled]
  refine .exceptT_bind (M := fun now s => HasRead output (Within spec started n) s ∧
    now = s.clock) (.lift (.perform fun s reply s' hs hcommit =>
      ⟨trivial, hs.1.commit hP hcommit fun _ => rfl, ?_⟩)) fun now => ?_
  · obtain ⟨found, -, -, hanswers, rfl⟩ := hcommit
    exact hanswers
  by_cases htime : milliseconds spec.timeoutMs ≤ now - started
  · rw [if_pos htime]
    refine (does_stopWith (P := fun s => s.process ≠ .absent ∧
      start + milliseconds spec.timeoutMs ≤ s.clock) output
      (fun s s' hs hgrows => ⟨hgrows.present hs.1, hs.2.trans hgrows.clock⟩) (fun s hs => hs.1)
      ?_).mono (fun s hs => ?_) fun _ _ h => h
    · exact fun s hs => ⟨rfl, hs.2⟩
    · have hbegun := hs.1.holds.begun
      rw [hs.2] at htime
      exact ⟨hs.1.taken, hs.1.published, hs.1.holds.present, by omega⟩
  rw [if_neg htime]
  refine .mono (Triple.of_pure (c := 0 < n) fun hn => ?_) (fun s hs => ⟨?_, hs.1⟩)
    fun _ _ h => h
  · refine .exceptT_bind ((does_readAvailable hP).relax (fun _ _ h => .inl h) fun _ _ h => h)
      fun chunk => ?_
    refine .exceptT_bind ((does_appendOutput hP hpresent).mono (fun s hs => hs.1)
      fun _ _ h => h) fun kept => .of_pure fun _ => .of_pure fun hkept => ?_
    refine .exceptT_bind ((does_exitCode hP hpresent).relax (fun _ _ h => .inl h)
      fun _ _ h => h) fun exited => ?_
    cases exited with
    | some code =>
        refine .mono (Triple.of_pure (c := code ≠ stillActive) fun hcode =>
          .exceptT_bind (does_drainOutput 256 0 hkept) fun kept => .pure fun s hs =>
            ⟨hs.2.2, hcode, hs.2.1, hs.1⟩) (fun s hs => ?_) fun _ _ h => h
        obtain ⟨hs, hcode⟩ := hs
        exact ⟨(hcode code rfl).2, hs.taken, hs.published, (hcode code rfl).1⟩
    | none =>
        refine .exceptT_bind ((does_pause hP
          (started + milliseconds spec.timeoutMs - milliseconds (10 * n))).mono
          (fun s hs => ⟨hs.1, Nat.sub_le_of_le_add hs.1.holds.bound⟩) fun _ _ h => h)
          fun _ => (hrest hn kept).mono (fun s hs => ?_) fun _ _ h => h
        have hlater := hs.2
        refine ⟨hs.1.taken, hs.1.published, hs.1.holds.present, hs.1.holds.begun, ?_⟩
        simp only [milliseconds] at hlater ⊢
        omega
  · refine Nat.pos_of_ne_zero fun hn => htime ?_
    have hbound := hs.1.holds.bound
    rw [hs.2]
    simp only [milliseconds, hn] at hbound ⊢
    omega

theorem does_pollProcess (hstart : start ≤ started) :
    Does (HasRead output (Within spec started n)) (pollProcess spec started (n + 1) output).run
      (either (Stopped spec start) (Finished spec)) := by
  induction n generalizing output with
  | zero => exact does_round hstart fun h => absurd h (Nat.lt_irrefl 0)
  | succ n ih => exact does_round hstart fun _ output => ih

/-! ### The whole run -/

/-- No process was started yet. -/
structure Untouched (start : ℕ) (s : Console) : Prop where
  absent : s.process = .absent
  taken : s.taken = []
  begun : start ≤ s.clock

theorem Untouched.evolves (hs : Untouched start s) (h : s.Evolves s') : Untouched start s' where
  absent := by
    rcases h.process with hsame | ⟨hrunning | hterminating, -⟩
    · rw [hsame, hs.absent]
    · rw [hs.absent] at hrunning
      cases hrunning
    · rw [hs.absent] at hterminating
      cases hterminating
  taken := h.taken.trans hs.taken
  begun := hs.begun.trans h.clock

theorem does_setUp {step : SetUp} {fail : ℕ → TerminalError} :
    Does (Untouched start) (call fail (perform (I := Consoles) (.setUp step))).run
      (either (Stopped spec start) fun _ => Untouched start) := by
  refine .adapt (.attempt (.perform fun s reply s' hs hcommit => ⟨trivial, ?_⟩))
  obtain ⟨found, hevolves, -, -, rfl⟩ := hcommit
  cases reply with
  | error _ => exact .inl rfl
  | ok _ => exact hs.evolves hevolves

/-- A check before there is a process. -/
theorem does_check {α β : Type} {r : Except TerminalError α} {f : α → ConsoleM β}
    {ok : β → Console → Prop}
    (hf : ∀ a, Does (Untouched start) (f a).run (either (Stopped spec start) ok)) :
    Does (Untouched start) (check r >>= f).run (either (Stopped spec start) ok) :=
  .check_bind (fun _ _ _ hs => .inr (.inl hs.absent)) fun a _ => hf a

theorem does_spawn {commandLine currentDirectory : String} {environment : Environment}
    {columns rows : ℕ} :
    Does (Untouched start) (spawn commandLine currentDirectory environment columns rows).run
      (either (Stopped spec start) fun _ =>
        HasRead [] fun s => s.process ≠ .absent ∧ start ≤ s.clock) := by
  refine does_check fun _ => does_check fun _ => .exceptT_bind does_setUp fun _ =>
    .exceptT_bind does_setUp fun _ => .exceptT_bind does_setUp fun _ =>
      .exceptT_bind does_setUp fun _ => .exceptT_bind does_setUp fun _ => ?_
  refine does_check fun _ => does_check fun _ => does_check fun _ => ?_
  refine .adapt (.attempt (.perform fun s reply s' hs hcommit => ⟨trivial, ?_⟩))
  obtain ⟨found, hevolves, -, -, rfl⟩ := hcommit
  have hfound := hs.evolves hevolves
  cases reply with
  | error _ => exact .inl rfl
  | ok _ =>
      refine ⟨hfound.taken, List.nil_prefix, ?_, hfound.begun⟩
      simp [ConsoleOp.effect, hfound.absent]

theorem does_run {canonicalize : String → Except TerminalError String}
    {terminal : BoundedTerminal} (hn : spec.timeoutMs ≤ 10 * n) :
    Does (Untouched start) (terminal.run canonicalize spec (n + 1)).run
      (either (Stopped spec start) (Finished spec)) := by
  refine does_check fun prepared => ?_
  refine .exceptT_bind (M := fun _ => Untouched start)
    (.lift (.perform fun s reply s' hs hcommit => ⟨trivial, ?_⟩)) fun cancelled => ?_
  · obtain ⟨found, hevolves, -, -, rfl⟩ := hcommit
    exact hs.evolves hevolves
  split_ifs
  · exact .throw fun s hs => .inr (.inl hs.absent)
  refine .exceptT_bind does_spawn fun _ => ?_
  refine .exceptT_bind (M := fun started s =>
    HasRead [] (fun s => s.process ≠ .absent ∧ start ≤ s.clock) s ∧ started = s.clock)
    (.lift (.perform fun s reply s' hs hcommit => ⟨trivial, hs.commit
      (fun s s' hs hgrows => ⟨hgrows.present hs.1, hs.2.trans hgrows.clock⟩) hcommit
      fun _ => rfl, ?_⟩)) fun started => ?_
  · obtain ⟨found, -, -, hanswers, rfl⟩ := hcommit
    exact hanswers
  refine .mono (Triple.of_pure (c := start ≤ started) fun hstart =>
    does_pollProcess hstart) (fun s hs => ?_) fun _ _ h => h
  obtain ⟨⟨htaken, hpublished, hpresent, hbegun⟩, rfl⟩ := hs
  refine ⟨hbegun, htaken, hpublished, hpresent, le_rfl, Nat.add_le_add_left ?_ _⟩
  exact Nat.mul_le_mul_right _ hn

/-- A run comes to an end: it gives the code of the process and everything that was
published, or says why it has ended the process. -/
theorem bounded_run {canonicalize : String → Except TerminalError String}
    {terminal : BoundedTerminal} {spec : TerminalSpec} {fuel : ℕ}
    (hfuel : spec.timeoutMs / 10 + 2 ≤ fuel) {s s' : Console} {h h' : History Consoles}
    {r : Except TerminalError (Option TerminalRunResult)} (habsent : s.process = .absent)
    (htaken : s.taken = [])
    (hruns : Runs Consoles.Commit (terminal.run canonicalize spec fuel).run s h r s' h') :
    either (Stopped spec s.clock) (Finished spec) r s' := by
  obtain ⟨n, rfl⟩ : ∃ n, fuel = n + 1 := ⟨fuel - 1, by omega⟩
  have hrun : Does (Untouched s.clock) (terminal.run canonicalize spec (n + 1)).run
      (either (Stopped spec s.clock) (Finished spec)) := does_run (by omega)
  exact hrun.runs ⟨habsent, htaken, le_rfl⟩ hruns

namespace BoundedSample

def tool : TerminalSpec := PrepareSample.spec ["C:\\work\\tool.exe"]

/-- A process that runs has written two bytes and ended when it is looked at next. -/
def looked (s : Console) : Console :=
  if s.process = .running then
    { s with process := .ended 0, published := s.published ++ [111, 107] }
  else s

/-- A console that answers. A process cannot be terminated. -/
def world : Handler Consoles Console where
  answer s
    | .isCancelled => (s.cancelled, s)
    | .now => (s.clock, s)
    | .setUp _ => (.ok (), s)
    | .createProcess _ _ _ =>
        (.ok (), { s with process := if s.process = .absent then .running else s.process })
    | .peekNamedPipe => (.ok (looked s).pending.length, looked s)
    | .readFile requested =>
        if requested = 0 then (.error 1, { s with faulty := true })
        else
          (.ok (s.pending.take requested),
            { s with taken := s.taken ++ s.pending.take requested })
    | .getExitCodeProcess =>
        (.ok (match s.process with | .ended code => code | _ => stillActive), s)
    | .terminateProcess _ => (.error 5, { s with faulty := true })
    | .sleep nanoseconds => ((), { s with clock := s.clock + nanoseconds })

theorem evolves_self (s : Console) : s.Evolves s :=
  ⟨le_rfl, List.prefix_rfl, .inl rfl, id, rfl, rfl⟩

theorem evolves_looked (s : Console) : s.Evolves (looked s) := by
  rw [looked]
  split_ifs with hrunning
  · exact ⟨le_rfl, List.prefix_append .., .inr ⟨.inl hrunning, 0, rfl⟩, id, rfl, rfl⟩
  · exact evolves_self s

theorem world_sound (s : Console) (op : ConsoleOp) :
    Consoles.Commit s ⟨op, (world.answer s op).1⟩ (world.answer s op).2 := by
  cases op with
  | isCancelled | now => exact ⟨s, evolves_self s, le_rfl, rfl, rfl⟩
  | setUp | createProcess => exact ⟨s, evolves_self s, le_rfl, trivial, rfl⟩
  | peekNamedPipe =>
      exact ⟨looked s, evolves_looked s, (evolves_looked s).clock,
        ⟨le_rfl, List.eq_nil_of_length_eq_zero⟩, rfl⟩
  | readFile requested =>
      refine ⟨s, evolves_self s, le_rfl, ?_⟩
      by_cases hzero : requested = 0
      · simp [world, hzero, ConsoleOp.answers, ConsoleOp.effect, isBrokenPipe]
      · simp [world, hzero, ConsoleOp.answers, ConsoleOp.effect, List.take_prefix]
  | getExitCodeProcess =>
      refine ⟨s, evolves_self s, le_rfl, ?_, rfl⟩
      cases hprocess : s.process <;> simp [world, ConsoleOp.answers, hprocess]
  | terminateProcess => exact ⟨s, evolves_self s, le_rfl, trivial, rfl⟩
  | sleep nanoseconds =>
      exact ⟨{ s with clock := s.clock + nanoseconds },
        ⟨Nat.le_add_right .., List.prefix_rfl, .inl rfl, id, rfl, rfl⟩, le_rfl, trivial, rfl⟩

def finished : Console where
  process := .ended 0
  published := [111, 107]
  taken := [111, 107]
  clock := 20000000

theorem exec_tool : exec world (PrepareSample.terminal.run .ok tool 102).run {} =
    (.ok (some ⟨0, [111, 107]⟩), finished) := by
  rfl

theorem runs_tool : ∃ h, Runs Consoles.Commit (PrepareSample.terminal.run .ok tool 102).run {} []
    (.ok (some ⟨0, [111, 107]⟩)) finished h := by
  obtain ⟨h, hruns, -⟩ := runs_of_exec (s := {}) (h := []) world_sound
    (PrepareSample.terminal.run .ok tool 102).run
  rw [exec_tool] at hruns
  exact ⟨h, hruns⟩

end BoundedSample

open BoundedSample in
/-- The two bytes are all that was published. -/
theorem bounded_run_finished : Finished tool (some ⟨0, [111, 107]⟩) finished := by
  obtain ⟨h, hruns⟩ := runs_tool
  exact bounded_run (by decide) rfl rfl hruns

end Worker

end VorCommander
