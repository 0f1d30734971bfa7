import VorCommander.Billing.Sharing

/-!
Events that are answered, and the file.

What a process reads from the file when it opens a store has every event that has
been answered by then, if all processes are considerate: `nothing_lost`. One that
is not loses what another has written (`opened_twice_loses`).
-/

namespace VorCommander

open Steps Steps.Program Steps.World Text

variable {same : Bool} {base : PersistedBillingState} {deliveries deliveries' : List Delivery}
  {w : World (billingSystem same)} {s' : BillingDisk} {i : ℕ} {e : Event BillingFile}
  {c : Call (billingSystem same)} {rest : Program BillingFile (billingSystem same).Result}
  {event : Value}

/-! ### What is promised -/

/-- What an answered event asks of a state that is read later. -/
def HasEvent (base : PersistedBillingState) (event : Value) (now : ℕ) (duplicate : Bool)
    (state : PersistedBillingState) : Prop :=
  Processed state event ∧ ∃ deliveries, AllApply base deliveries ∧ deliveries.Pairwise Different ∧
    state = leaves base deliveries ∧ (duplicate = false → (event, now) ∈ deliveries)

/-- Call `i` has answered the event. -/
def HasAnswered (w : World (billingSystem same)) (i : ℕ) (event : Value) (now : ℕ)
    (duplicate : Bool) : Prop :=
  ∃ c store result, w.calls i = some c ∧ c.entry = .webhook store event now ∧
    c.rest = some (.done (.ok (.answered result))) ∧ result.duplicate = duplicate

/-- A state that is read after an event was answered has the event, and no event is
answered as new by two calls. -/
structure NothingLost (base : PersistedBillingState) (w : World (billingSystem same)) : Prop where
  kept : ∀ i event now duplicate, HasAnswered w i event now duplicate →
    ∀ later j state earlier, w.log = later ++ (j, ⟨.read, .ok state⟩) :: earlier →
      (∀ e, (i, e) ∉ later) → HasEvent base event now duplicate state
  once : ∀ i j event event' now now' eventId, HasAnswered w i event now false →
    HasAnswered w j event' now' false → requiredStr event "id" = .ok eventId →
    requiredStr event' "id" = .ok eventId → i = j

/-! ### Duplicates -/

theorem Processed.grows (h : Processed (leaves base deliveries) event)
    (hgrows : deliveries <+: deliveries') : Processed (leaves base deliveries') event := by
  obtain ⟨eventId, hid, hcontains⟩ := h
  obtain ⟨more, rfl⟩ := hgrows
  refine ⟨eventId, hid, ?_⟩
  rw [leaves_append]
  exact contains_leaves hcontains more

/-- An event that a store had when it was delivered is in the file, and in every
state that was read since. -/
structure Known (base : PersistedBillingState) (w : World (billingSystem same))
    (deliveries : List Delivery) : Prop where
  file : ∀ i c store event now state, w.calls i = some c → c.entry = .webhook store event now →
    Processed state event → (i, ⟨.enter store, some state⟩) ∈ w.log →
    Processed (leaves base deliveries) event
  reads : ∀ i c store event now state, w.calls i = some c → c.entry = .webhook store event now →
    Processed state event → ∀ later j e stored earlier, w.log = later ++ (j, e) :: earlier →
    readOf e = some stored → (i, ⟨.enter store, some state⟩) ∈ earlier → Processed stored event

theorem Known.commit (hknown : Known base w deliveries) (hc : w.calls i = some c)
    (hgrows : deliveries <+: deliveries')
    (hstored : ∀ state, w.shared.stored = some state → state = leaves base deliveries)
    (hcommit : w.shared.Commit same e s') (hconsiderate : Considerate w i e) :
    Known base (w.commit i c e rest s') deliveries' := by
  have hcalls : ∀ j c', (w.commit i c e rest s').calls j = some c' →
      ∃ c'', w.calls j = some c'' ∧ c''.entry = c'.entry := by
    intro j c' hc'
    by_cases hji : j = i
    · subst hji
      simp only [World.commit, Function.update_self, Option.some.injEq] at hc'
      exact ⟨c, hc, hc' ▸ rfl⟩
    · exact ⟨c', by simpa [World.commit, hji] using hc', rfl⟩
  refine ⟨?_, ?_⟩
  · intro j c' store event now state hc' hentry hprocessed hmem
    obtain ⟨c'', hc'', hentry'⟩ := hcalls j c' hc'
    refine Processed.grows ?_ hgrows
    rcases List.mem_cons.mp hmem with heq | hmem
    · obtain ⟨rfl, rfl⟩ := Prod.mk.inj heq
      obtain ⟨stored, hfile, hhas⟩ :=
        hconsiderate c'' event now hc'' (hentry'.trans hentry) hprocessed
      rwa [← hstored stored hfile]
    · exact hknown.file j c'' store event now state hc'' (hentry'.trans hentry) hprocessed hmem
  · intro j c' store event now state hc' hentry hprocessed later k e' stored earlier hlog hread hmem
    obtain ⟨c'', hc'', hentry'⟩ := hcalls j c' hc'
    cases later with
    | nil =>
        obtain ⟨hhead, rfl⟩ := List.cons.inj hlog
        obtain ⟨rfl, rfl⟩ := Prod.mk.inj hhead
        -- what is read is what the file has
        obtain rfl : stored = leaves base deliveries := by
          obtain ⟨op, reply⟩ := e
          cases op <;> try cases hread
          cases reply with
          | error _ => cases hread
          | ok state' =>
              obtain rfl := Option.some.inj hread
              exact hstored _ hcommit.2
        exact hknown.file j c'' store event now state hc'' (hentry'.trans hentry) hprocessed hmem
    | cons entry later =>
        exact hknown.reads j c'' store event now state hc''
          (hentry'.trans hentry) hprocessed later k
          e' stored earlier (List.cons.inj hlog).2 hread hmem

/-! ### Runs -/

variable {w' : World (billingSystem same)}

/-- A step that performs nothing. -/
theorem Shared.idle (hw : Shared base w deliveries) (hshared : w'.shared = w.shared)
    (hlog : w'.log = w.log)
    (hcalls : ∀ j c p, w'.calls j = some c → c.rest = some p → Rewrites c.history →
      w.calls j = some c) : Shared base w' deliveries := by
  refine ⟨by rw [hshared, hlog]; exact hw.holds, ?_, ?_⟩
  · rintro i j ⟨c, p, hc, hp, hrewrites⟩ ⟨c', p', hc', hp', hrewrites'⟩
    exact hw.alone i j ⟨c, p, hcalls i c p hc hp hrewrites, hp, hrewrites⟩
      ⟨c', p', hcalls j c' p' hc' hp' hrewrites', hp', hrewrites'⟩
  · intro j c p hc hp hrewrites
    rw [hshared, hlog]
    exact hw.midway j c p (hcalls j c p hc hp hrewrites) hp hrewrites

theorem Known.idle (hknown : Known base w deliveries) (hlog : w'.log = w.log)
    (hcalls : ∀ j c e, w'.calls j = some c → (j, e) ∈ w.log →
      ∃ c', w.calls j = some c' ∧ c'.entry = c.entry) : Known base w' deliveries := by
  refine ⟨?_, ?_⟩
  · intro j c store event now state hc hentry hprocessed hmem
    rw [hlog] at hmem
    obtain ⟨c', hc', hentry'⟩ := hcalls j c _ hc hmem
    exact hknown.file j c' store event now state hc' (hentry'.trans hentry) hprocessed hmem
  · intro j c store event now state hc hentry hprocessed later k e stored earlier hsplit hread hmem
    rw [hlog] at hsplit
    obtain ⟨c', hc', hentry'⟩ := hcalls j c ⟨.enter store, some state⟩ hc (by
      rw [hsplit]
      exact List.mem_append_right _ (List.mem_cons_of_mem _ hmem))
    exact hknown.reads j c' store event now state hc' (hentry'.trans hentry) hprocessed later k e
      stored earlier hsplit hread hmem

/-- What holds in every world of a run in which all processes are considerate. -/
theorem shared_of_reachable {disk : BillingDisk} (hdisk : disk.Named)
    (hw : ReachableBy (fun s => s = disk) anyEntry InTurn w) :
    ∃ deliveries, Shared (disk.stored.getD {}) w deliveries ∧
      Known (disk.stored.getD {}) w deliveries := by
  refine hw.induction (P := fun w => ∃ deliveries, Shared (disk.stored.getD {}) w deliveries ∧
    Known (disk.stored.getD {}) w deliveries) ?_ ?_
  · rintro s rfl
    refine ⟨[], ⟨⟨allApply_nil, List.Sublist.refl _, ?_, hdisk, ?_, ?_⟩, ?_, ?_⟩, ⟨?_, ?_⟩⟩
    · intro state hstored
      have hstored' : s.stored = some state := hstored
      rw [hstored']
      rfl
    · intro hnone
      have hnone' : s.target = none := hnone
      exact ⟨rfl, by simp [BillingDisk.stored, hnone']⟩
    · intro later j e state earlier hlog
      cases later <;> cases hlog
    · rintro i j ⟨c, _, hc, -⟩
      cases hc
    · intro i c p hc
      cases hc
    · intro i c store event now state hc
      cases hc
    · intro i c store event now state hc
      cases hc
  rintro w w' hreach ⟨deliveries, hshared, hknown⟩ hstep hturn
  cases hstep with
  | @start i entry hfresh _ =>
      -- a process that has just been started has performed nothing
      refine ⟨deliveries, hshared.idle rfl rfl fun j c p hc hp hrewrites => ?_,
        hknown.idle rfl fun j c e hc hmem => ?_⟩
      · by_cases hji : j = i
        · subst hji
          simp only [World.start, Function.update_self, Option.some.injEq] at hc
          subst hc
          cases hrewrites
        · simpa [World.start, hji] using hc
      · by_cases hji : j = i
        · subst hji
          obtain ⟨c', hc'⟩ := hreach.reachable.consistent.started j e hmem
          rw [hfresh] at hc'
          cases hc'
        · exact ⟨c, by simpa [World.start, hji] using hc, rfl⟩
  | @commit i c op next reply s hc hrest hcommit =>
      have hreachable := hreach.reachable
      have hhistory := hreachable.consistent.history i c hc
      have hG :=
        hreachable.guarantee_next safe_billing (hreachable.allowed fun _ _ _ _ _ => trivial) hc
        hrest
      rw [← hhistory] at hG
      obtain ⟨deliveries', hgrows, hshared'⟩ := hshared.step hhistory hc hrest hG hcommit
        (hturn i ⟨op, reply⟩ rfl)
      exact ⟨deliveries', hshared', hknown.commit hc hgrows hshared.holds.stored hcommit
        (hturn i ⟨op, reply⟩ rfl)⟩
  | @crash i c hc =>
      -- a process that has crashed rewrites nothing
      refine ⟨deliveries, hshared.idle rfl rfl fun j c' p hc' hp hrewrites => ?_,
        hknown.idle rfl fun j c' e hc' hmem => ?_⟩
      · by_cases hji : j = i
        · subst hji
          simp only [World.crash, Function.update_self, Option.some.injEq] at hc'
          subst hc'
          cases hp
        · simpa [World.crash, hji] using hc'
      · by_cases hji : j = i
        · subst hji
          simp only [World.crash, Function.update_self, Option.some.injEq] at hc'
          exact ⟨c, hc, hc' ▸ rfl⟩
        · exact ⟨c', by simpa [World.crash, hji] using hc', rfl⟩

/-- What a call has performed that has answered an event. -/
theorem HasAnswered.cause {init : BillingDisk → Prop} (hw : Reachable init anyEntry w) {now : ℕ}
    {duplicate : Bool} (hanswers : HasAnswered w i event now duplicate) :
    ∃ c store, w.calls i = some c ∧ c.entry = .webhook store event now ∧
      if duplicate then ∃ state, (i, ⟨.enter store, some state⟩) ∈ w.log ∧ Processed state event
      else (i, ⟨.rename (some (event, now)), .ok ()⟩) ∈ w.log := by
  obtain ⟨c, store, result, hc, hentry, hdone, rfl⟩ := hanswers
  obtain ⟨store', event', now', hentry', hcause⟩ :=
    hw.result safe_billing (hw.allowed fun _ _ _ _ _ => trivial) hc hdone result rfl
  obtain ⟨rfl, rfl, rfl⟩ := BillingEntry.webhook.inj (hentry.symm.trans hentry')
  refine ⟨c, store, hc, hentry, ?_⟩
  split at hcause
  · obtain ⟨state, henter, hprocessed⟩ := hcause
    rw [if_pos ‹_›]
    exact ⟨state, Log.mem_of.mp henter, hprocessed⟩
  · rw [if_neg ‹_›]
    exact Log.mem_of.mp hcause

/-- A renamed file has the event it was renamed for. -/
theorem mem_renamed {log : Log BillingFile} {delivery : Delivery}
    (h : (i, ⟨.rename (some delivery), .ok ()⟩) ∈ log) : delivery ∈ renamed log :=
  List.mem_reverse.mpr (List.mem_filterMap.mpr ⟨_, h, rfl⟩)

/-- If all processes are considerate, no event is lost that has been answered. -/
theorem nothing_lost (same : Bool) (disk : BillingDisk) (hdisk : disk.Named)
    (w : World (billingSystem same)) (hw : ReachableBy (fun s => s = disk) anyEntry InTurn w) :
    NothingLost (disk.stored.getD {}) w := by
  obtain ⟨deliveries, hshared, hknown⟩ := shared_of_reachable hdisk hw
  refine ⟨?_, ?_⟩
  · intro i event now duplicate hanswers later j state earlier hlog hlater
    obtain ⟨c, store, hc, hentry, hcause⟩ := hanswers.cause hw.reachable
    -- the call had ended when the file was read
    have hearlier : ∀ e, (i, e) ∈ w.log → e.op ≠ .read → (i, e) ∈ earlier := by
      intro e hmem hop
      rw [hlog] at hmem
      rcases List.mem_append.mp hmem with hmem | hmem
      · exact absurd hmem (hlater e)
      rcases List.mem_cons.mp hmem with heq | hmem
      · obtain ⟨-, rfl⟩ := Prod.mk.inj heq
        exact absurd rfl hop
      · exact hmem
    obtain ⟨read, hall, hhas, rfl⟩ := hshared.holds.reads later j _ state earlier hlog rfl
    cases duplicate with
    | true =>
        obtain ⟨entered, henter, hprocessed⟩ := hcause
        refine ⟨?_, read, hall, hall.pairwise, rfl, by rintro ⟨⟩⟩
        exact hknown.reads i c store event now entered hc hentry hprocessed later j _ _ earlier hlog
          rfl (hearlier _ henter (by rintro ⟨⟩))
    | false =>
        have hmem := hhas.subset (mem_renamed (hearlier _ hcause (by rintro ⟨⟩)))
        refine ⟨?_, read, hall, hall.pairwise, rfl, fun _ => hmem⟩
        obtain ⟨before, after, rfl⟩ := List.append_of_mem hmem
        obtain ⟨eventId, -, -, hid, -⟩ := hall before (event, now) after rfl
        exact ⟨eventId, hid, hall.contains hid⟩
  · intro i j event event' now now' eventId hanswers hanswers' hid hid'
    obtain ⟨_, _, _, _, hrename⟩ := hanswers.cause hw.reachable
    obtain ⟨_, _, _, _, hrename'⟩ := hanswers'.cause hw.reachable
    by_contra hne
    have hpairwise := hshared.holds.apply.pairwise.sublist hshared.holds.has
    rw [renamed, List.pairwise_reverse, List.pairwise_filterMap] at hpairwise
    have hsymm : Std.Symm fun entry entry' : ℕ × Event BillingFile => ∀ delivery,
        renameOf entry.2 = some delivery → ∀ delivery', renameOf entry'.2 = some delivery' →
          Different delivery' delivery :=
      ⟨fun _ _ h delivery hd delivery' hd' => (h delivery' hd' delivery hd).symm⟩
    have hdifferent := hpairwise.forall hrename hrename' fun heq => hne (Prod.mk.inj heq).1
    exact hdifferent _ rfl _ rfl eventId hid' hid

/-! ### Two stores on one path -/

namespace BillingSample

/-- A file with the empty state, and no store. -/
def fresh : BillingDisk where
  contents _ := .state {}
  target := some 0
  temp := none
  files := 1
  memory _ := none
  held _ := false

/-- Another event that is only recorded. -/
def other : Value := .object
  [("id", .string "evt_other"), ("type", .string "billing.durability.probe")]

theorem fresh_named : fresh.Named := by
  refine ⟨?_, by rintro _ ⟨⟩⟩
  rintro _ ⟨⟩
  exact Nat.zero_lt_one

/-- Calls that are started one after the other. -/
def started (disk : BillingDisk) (entries : List BillingEntry) : World (billingSystem false) :=
  entries.zipIdx.foldl (fun w entry => w.start entry.2 entry.1) (initial disk)

theorem reachable_started (disk : BillingDisk) (entries : List BillingEntry) :
    Reachable (fun s => s = disk) anyEntry (started disk entries) := by
  suffices h : ∀ n (w : World (billingSystem false)), Reachable (fun s => s = disk) anyEntry w →
      (∀ k, n ≤ k → w.calls k = none) → Reachable (fun s => s = disk) anyEntry
        ((entries.zipIdx n).foldl (fun w entry => w.start entry.2 entry.1) w) from
    h 0 _ (reachable_initial rfl) fun _ _ => rfl
  induction entries with
  | nil => exact fun n w hw _ => hw
  | cons entry entries ih =>
      intro n w hw hfresh
      refine ih (n + 1) _ (hw.start (hfresh n le_rfl) trivial) fun k hk => ?_
      have hne : k ≠ n := by omega
      show Function.update w.calls n _ k = none
      rw [Function.update_of_ne hne]
      exact hfresh k (by omega)

/-- Two stores are opened, each is told of one event, and a third is opened. -/
def openedTwice : World (billingSystem false) :=
  (started fresh [.openStore 0, .openStore 1, .webhook 0 probe 1, .webhook 1 other 2,
      .openStore 2]).moves (workingBilling false fun _ => false)
    (List.replicate 4 0 ++ List.replicate 4 1 ++ List.replicate 8 2 ++ List.replicate 8 3 ++
      List.replicate 4 4)

theorem answers_openedTwice : HasAnswered openedTwice 2 probe 1 false :=
  ⟨_, 0, _, rfl, rfl, rfl, rfl⟩

/-- What the third store has read. -/
def lastRead (w : World (billingSystem false)) : PersistedBillingState :=
  ((w.log.findSome? fun entry => readOf entry.2)).getD {}

end BillingSample

/-- Two stores are opened on one path, and each is told of an event. A store that is
opened then does not have the event of the first. -/
theorem opened_twice_loses : ∃ w : World (billingSystem false),
    BillingSample.fresh.Named ∧ Reachable (fun s => s = BillingSample.fresh) anyEntry w ∧
      ¬ NothingLost (BillingSample.fresh.stored.getD {}) w := by
  refine ⟨BillingSample.openedTwice, BillingSample.fresh_named, ?_, fun hkeeps => ?_⟩
  · exact (BillingSample.reachable_started _ _).moves (workingBilling_commits _ _) _
  · have hread : (BillingSample.openedTwice).log = BillingSample.openedTwice.log.take 1 ++
        (4, ⟨.read, .ok (BillingSample.lastRead BillingSample.openedTwice)⟩) ::
          BillingSample.openedTwice.log.drop 2 := rfl
    obtain ⟨⟨eventId, hid, hcontains⟩, -⟩ := hkeeps.kept 2 BillingSample.probe 1 false
      BillingSample.answers_openedTwice _ _ _ _ hread fun e hmem => by
        have hlast : 2 ∈ (BillingSample.openedTwice.log.take 1).map (·.1) :=
          List.mem_map.mpr ⟨_, hmem, rfl⟩
        exact absurd hlast (by decide +kernel)
    obtain rfl : "evt_probe" = eventId := Except.ok.inj hid
    have hmissing : (BillingSample.lastRead BillingSample.openedTwice).events.contains "evt_probe" =
        false := by decide +kernel
    rw [hmissing] at hcontains
    cases hcontains

/-! ### One store after the other -/

theorem inTurn_of {w w' : World (billingSystem same)} (hlog : w'.log = (i, e) :: w.log)
    (hconsiderate : Considerate w i e) : InTurn w w' := by
  intro j e' hlog'
  obtain ⟨rfl, rfl⟩ := Prod.mk.inj (List.cons.inj (hlog.symm.trans hlog')).1
  exact hconsiderate

theorem inTurn_of_log {w w' : World (billingSystem same)} (hlog : w'.log = w.log) :
    InTurn w w' := by
  intro j e hlog'
  exact absurd (congrArg List.length (hlog.symm.trans hlog')) (by simp)

namespace BillingSample

theorem reachableBy_started (disk : BillingDisk) (entries : List BillingEntry) :
    ReachableBy (fun s => s = disk) anyEntry InTurn (started disk entries) := by
  suffices h : ∀ n (w : World (billingSystem false)),
      ReachableBy (fun s => s = disk) anyEntry InTurn w →
      (∀ k, n ≤ k → w.calls k = none) → ReachableBy (fun s => s = disk) anyEntry InTurn
        ((entries.zipIdx n).foldl (fun w entry => w.start entry.2 entry.1) w) from
    h 0 _ (reachableBy_initial rfl) fun _ _ => rfl
  induction entries with
  | nil => exact fun n w hw _ => hw
  | cons entry entries ih =>
      intro n w hw hfresh
      refine ih (n + 1) _ (hw.tail (.start (hfresh n le_rfl) trivial) (inTurn_of_log rfl)) ?_
      intro k hk
      have hne : k ≠ n := by omega
      show Function.update w.calls n _ k = none
      rw [Function.update_of_ne hne]
      exact hfresh k (by omega)

/-- Operations of which nothing is asked. -/
def undemanding : BillingOp → Bool
  | .openTemp | .enter _ | .store _ _ => false
  | _ => true

/-- The disk works, as far as nothing is asked of the operations. -/
def quietly : Answers BillingFile BillingDisk :=
  (workingBilling false fun _ => false).only undemanding

theorem inTurn_quietly {w w' : World (billingSystem false)} (hmoved : Moved quietly w i w') :
    InTurn w w' := by
  cases hmoved with
  | @commit c op next reply s hc hrest hanswer =>
      refine inTurn_of (i := i) (e := ⟨op, reply⟩) rfl ?_
      have hkind := (Answers.only_eq_some hanswer).1
      cases op <;> trivial

/-- A store is opened. -/
def first : World (billingSystem false) :=
  (started fresh [.openStore 0, .webhook 0 probe 1, .openStore 1]).moves quietly
    (List.replicate 4 0)

/-- It is told of an event, and opens the file for it. -/
def entered : World (billingSystem false) := first.move (workingBilling false fun _ => false) 1

def applied : World (billingSystem false) := entered.move (workingBilling false fun _ => false) 1

def writing : World (billingSystem false) := applied.move (workingBilling false fun _ => false) 1

/-- The file is written, and another store is opened. -/
def openedAgain : World (billingSystem false) :=
  writing.moves quietly (List.replicate 5 1 ++ List.replicate 4 2)

theorem not_rewriting_entered (j : ℕ) : ¬ Rewriting entered j := by
  rintro ⟨c, p, hc, -, hrewrites⟩
  rcases j with _ | _ | _ | j
  · obtain rfl := Option.some.inj hc
    exact hrewrites
  · obtain rfl := Option.some.inj hc
    exact hrewrites
  · obtain rfl := Option.some.inj hc
    exact hrewrites
  · cases hc

theorem sound_workingBilling : (workingBilling false fun _ => false).Sound (billingSystem false) :=
  workingBilling_commits _ _

theorem sound_quietly : quietly.Sound (billingSystem false) := sound_workingBilling.only undemanding

theorem reachable_openedAgain :
    ReachableBy (fun s => s = fresh) anyEntry InTurn openedAgain := by
  have hfirst : ReachableBy (fun s => s = fresh) anyEntry InTurn first :=
    (reachableBy_started _ _).moves sound_quietly (fun _ _ _ => inTurn_quietly) _
  have hentered : ReachableBy (fun s => s = fresh) anyEntry InTurn entered :=
    hfirst.moved sound_workingBilling (inTurn_of (i := 1) (e := ⟨.enter 0, some {}⟩) rfl
      fun _ _ _ _ _ hprocessed => ⟨{}, rfl, hprocessed⟩)
  have happlied : ReachableBy (fun s => s = fresh) anyEntry InTurn applied :=
    hentered.moved sound_workingBilling (inTurn_of (i := 1) (e := ⟨.store 0 _, ()⟩) rfl
      ⟨not_rewriting_entered, {}, {}, rfl, rfl, [], allApply_nil, rfl⟩)
  have hwriting : ReachableBy (fun s => s = fresh) anyEntry InTurn writing := by
    refine happlied.moved sound_workingBilling (inTurn_of (i := 1) (e := ⟨.openTemp, .ok 1⟩) rfl ?_)
    intro c store hc hentry
    obtain rfl := Option.some.inj hc
    cases hentry
  exact hwriting.moves sound_quietly (fun _ _ _ => inTurn_quietly) _

end BillingSample

/-- A store is opened, told of an event, and then opened again. -/
theorem nothing_lost_openedAgain :
    HasAnswered BillingSample.openedAgain 1 BillingSample.probe 1 false ∧
      NothingLost (BillingSample.fresh.stored.getD {}) BillingSample.openedAgain :=
  ⟨⟨_, 0, _, rfl, rfl, rfl, rfl⟩, nothing_lost false BillingSample.fresh BillingSample.fresh_named
    BillingSample.openedAgain BillingSample.reachable_openedAgain⟩

end VorCommander
