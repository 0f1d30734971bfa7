import VorCommander.Approver.Summary
import VorCommander.Text.Fields
import VorCommander.Text.Lines

/-!
What can be told from the text that an approver is shown.

The text is a heading, strings with labels between them, and an end. The strings come
from the request and the challenge as they are, so they can be told from the text if and
only if none of them has in it what may stand before it or after it. The list of
arguments and the numbers are part of what stands between two strings.
-/

namespace VorCommander.Approver

open Steps Text

/-! ### The parts of the text -/

/-- What stands between the directory and the actor of a command. -/
def terminalLabel (argv : List String) (timeoutMs maxOutputBytes : ℕ) : List Char :=
  "\n\nARGV (structured JSON):\n".toList ++ (argvJson argv ++ ("\n\nTimeout: ".toList ++
    (encodeNat timeoutMs ++ (" ms\nOutput budget: ".toList ++ (encodeNat maxOutputBytes ++
      (" bytes\n\nPoll/cancel do not authorize a new process.".toList ++
        "\n\nActor: ".toList))))))

/-- What stands between the allowed root and the digest of a plan. -/
def pidLabel (currentPid : ℕ) : List Char :=
  "\n\nCurrent PID: ".toList ++ (encodeNat currentPid ++ "\nPlan SHA-256: ".toList)

def terminalLabels : Set (List Char) :=
  { label | ∃ argv timeoutMs maxOutputBytes, timeoutMs < 2 ^ 64 ∧ maxOutputBytes < 2 ^ 64 ∧
    label = terminalLabel argv timeoutMs maxOutputBytes }

def pidLabels : Set (List Char) := { label | ∃ currentPid < 2 ^ 64, label = pidLabel currentPid }

/-- The beginning of the text, which tells the action. -/
def heading (action : String) : List Char :=
  if action = "filesystem.write" then
    "Vör Commander requests permission to write a file.\n\nTarget:\n".toList
  else if action = "terminal.exec" then
    "Vör Commander requests permission to start a bounded terminal process.\n\nCWD:\n".toList
  else ("Vör Commander requests OWNER permission for self-maintenance.\n\nAction: " ++ action ++
    "\nTarget:\n").toList

/-- What may stand between the strings up to the actor. -/
def actionPlaces (action : String) : List (Set (List Char)) :=
  if action = "filesystem.write" then
    [{"\n\nContent SHA-256: ".toList}, {"\nExpected target SHA-256: ".toList},
      {"\n\nActor: ".toList}]
  else if action = "terminal.exec" then [terminalLabels]
  else
    [{"\n\nStaged executable:\n".toList}, {"\nAllowed root:\n".toList}, pidLabels,
      {"\nCurrent SHA-256: ".toList}, {"\nStaged SHA-256: ".toList},
      {"\n\nThis approval is consumed before any process stop or binary swap.".toList ++
        "\n\nActor: ".toList}]

/-- What may stand between the strings from the actor on. -/
def commonPlaces : List (Set (List Char)) :=
  [{"\nDevice: ".toList}, {"\nOrganization: ".toList}, {"\nPolicy: ".toList},
    {"\nCapability: ".toList}, {"\nRequest: ".toList}]

def places (action : String) : List (Set (List Char)) := actionPlaces action ++ commonPlaces

def Details.action : Details → String
  | .write .. => "filesystem.write"
  | .terminal .. => "terminal.exec"
  | .maintenance action .. => action

/-- The string that is shown first. -/
def Details.first : Details → List Char
  | .write target _ _ => target.toList
  | .terminal cwd _ _ _ => cwd.toList
  | .maintenance _ target _ _ _ _ _ _ => target.toList

/-- What is shown after the first string up to the actor. -/
def Details.upToActor (actorId : String) : Details → List (List Char × List Char)
  | .write _ contentSha256 expectedTargetSha256 =>
      [("\n\nContent SHA-256: ".toList, contentSha256.toList),
       ("\nExpected target SHA-256: ".toList, expectedTargetSha256.toList),
       ("\n\nActor: ".toList, actorId.toList)]
  | .terminal _ argv timeoutMs maxOutputBytes =>
      [(terminalLabel argv timeoutMs maxOutputBytes, actorId.toList)]
  | .maintenance _ _ stagedExecutable allowedRoot currentPid planSha256 currentSha256
      stagedSha256 =>
      [("\n\nStaged executable:\n".toList, stagedExecutable.toList),
       ("\nAllowed root:\n".toList, allowedRoot.toList),
       (pidLabel currentPid, planSha256.toList),
       ("\nCurrent SHA-256: ".toList, currentSha256.toList),
       ("\nStaged SHA-256: ".toList, stagedSha256.toList),
       ("\n\nThis approval is consumed before any process stop or binary swap.".toList ++
          "\n\nActor: ".toList, actorId.toList)]

/-- What is shown after the first string. -/
def Displayed.rest (shown : Displayed) : List (List Char × List Char) :=
  shown.details.upToActor shown.actorId ++
    [("\nDevice: ".toList, shown.deviceId.toList),
     ("\nOrganization: ".toList, shown.organizationId.toList),
     ("\nPolicy: ".toList, shown.policyId.toList),
     ("\nCapability: ".toList, shown.capability.toList),
     ("\nRequest: ".toList, shown.requestId.toList)]

/-- The end of the text. -/
def ending (digest : Digest32) (expiresAtUnixMs : ℕ) : List Char :=
  "\nEnvelope SHA-256: ".toList ++ ((hexEncode digest.toList).toList ++
    ("\nExpires (Unix ms): ".toList ++ (encodeNat expiresAtUnixMs ++ String.toList
    "\n\nThis approval is bound to this exact request and can be consumed only once.\n\nApprove?")))

/-- The details that a request can show: the numbers fit in 64 bits. -/
def Details.Valid : Details → Prop
  | .write .. => True
  | .terminal _ _ timeoutMs maxOutputBytes => timeoutMs < 2 ^ 64 ∧ maxOutputBytes < 2 ^ 64
  | .maintenance action _ _ _ currentPid _ _ _ =>
      action ∈ ["maintenance.apply", "maintenance.recover"] ∧ currentPid < 2 ^ 64

section Parts

variable {request : ActionRequest} {challenge : ApprovalChallenge} {details : Details}
  {shown : Displayed}

theorem requiredU64Parameter_lt {name : String} {n : ℕ}
    (h : requiredU64Parameter request name = .ok n) : n < 2 ^ 64 := by
  rw [requiredU64Parameter, orFail_eq_ok, Option.filter_eq_some_iff] at h
  exact of_decide_eq_true h.2

theorem readDetails_valid (h : readDetails request = .ok details) :
    details.Valid ∧ details.action = request.envelope.action := by
  rw [readDetails] at h
  split_ifs at h with hwrite hterminal hmaintenance
  · simp only [bind_eq_ok, pure_eq_ok] at h
    obtain ⟨_, _, _, _, rfl⟩ := h
    exact ⟨trivial, hwrite.symm⟩
  · simp only [bind_eq_ok, pure_eq_ok] at h
    obtain ⟨_, _, _, _, _, htimeout, _, houtput, rfl⟩ := h
    exact ⟨⟨requiredU64Parameter_lt htimeout, requiredU64Parameter_lt houtput⟩, hterminal.symm⟩
  · simp only [bind_eq_ok, pure_eq_ok] at h
    obtain ⟨_, _, _, _, _, _, _, _, _, _, _, hpid, rfl⟩ := h
    exact ⟨⟨by simpa using hmaintenance, requiredU64Parameter_lt hpid⟩, rfl⟩

theorem Details.Valid.signed (h : details.Valid) : details.action ∈ signedActions := by
  cases details with
  | write => simp [Details.action, signedActions]
  | terminal => simp [Details.action, signedActions]
  | maintenance =>
      have haction := List.mem_pair.mp h.1
      rcases haction with rfl | rfl <;> simp [Details.action, signedActions]

/-- The parts of the text of a maintenance. -/
theorem Details.Valid.maintenance {action : String}
    (h : action ∈ ["maintenance.apply", "maintenance.recover"]) :
    action ≠ "filesystem.write" ∧ action ≠ "terminal.exec" := by
  rcases List.mem_pair.mp h with rfl | rfl
  · decide
  · decide

theorem fits_rest (h : shown.details.Valid) : Fits (places shown.details.action) shown.rest := by
  have hcommon : Fits commonPlaces
      [("\nDevice: ".toList, shown.deviceId.toList),
       ("\nOrganization: ".toList, shown.organizationId.toList),
       ("\nPolicy: ".toList, shown.policyId.toList),
       ("\nCapability: ".toList, shown.capability.toList),
       ("\nRequest: ".toList, shown.requestId.toList)] :=
    .cons rfl (.cons rfl (.cons rfl (.cons rfl (.cons rfl .nil))))
  refine List.rel_append ?_ hcommon
  cases hdetails : shown.details with
  | write => exact .cons rfl (.cons rfl (.cons rfl .nil))
  | terminal cwd argv timeoutMs maxOutputBytes =>
      rw [hdetails] at h
      exact .cons ⟨argv, timeoutMs, maxOutputBytes, h.1, h.2, rfl⟩ .nil
  | maintenance action target stagedExecutable allowedRoot currentPid =>
      rw [hdetails] at h
      obtain ⟨hwrite, hterminal⟩ := Details.Valid.maintenance h.1
      rw [Details.action, actionPlaces, if_neg hwrite, if_neg hterminal]
      exact .cons rfl (.cons rfl (.cons ⟨currentPid, h.2, rfl⟩
        (.cons rfl (.cons rfl (.cons rfl .nil)))))

theorem toList_text (h : shown.details.Valid) (digest : Digest32) :
    (shown.text digest).toList = heading shown.details.action ++
      (joinFields shown.details.first shown.rest ++ ending digest shown.expiresAtUnixMs) := by
  unfold Displayed.text Displayed.rest joinFields ending
  cases hdetails : shown.details with
  | write target contentSha256 expectedTargetSha256 =>
      unfold Details.text Details.action heading Details.first Details.upToActor
      simp only [if_true, String.toList_append, toList_toString, List.flatMap_append,
        List.flatMap_cons, List.flatMap_nil, List.append_assoc, List.append_nil]
  | terminal cwd argv timeoutMs maxOutputBytes =>
      have hne : ¬ "terminal.exec" = "filesystem.write" := by decide
      unfold Details.text Details.action heading Details.first Details.upToActor terminalLabel
      simp only [if_neg hne, if_true, String.toList_append, String.toList_ofList, toList_toString,
        List.flatMap_append, List.flatMap_cons, List.flatMap_nil, List.append_assoc,
        List.append_nil]
  | maintenance action target stagedExecutable allowedRoot currentPid planSha256 currentSha256
      stagedSha256 =>
      rw [hdetails] at h
      obtain ⟨hwrite, hterminal⟩ := Details.Valid.maintenance h.1
      unfold Details.text Details.action heading Details.first Details.upToActor pidLabel
      simp only [if_neg hwrite, if_neg hterminal, String.toList_append, toList_toString,
        List.flatMap_append, List.flatMap_cons, List.flatMap_nil, List.append_assoc,
        List.append_nil]

end Parts

/-! ### Where the parts begin and end -/

theorem commaSeparated_append_inj {argv argv' : List String} {back back' : List Char}
    (h : commaSeparated (argv.map encodeString) ++ ']' :: back =
      commaSeparated (argv'.map encodeString) ++ ']' :: back') : argv = argv' ∧ back = back' := by
  -- a string begins with a quote, and a comma or the bracket comes after it
  induction argv generalizing argv' with
  | nil =>
      cases argv' with
      | nil => exact ⟨rfl, (List.cons.inj h).2⟩
      | cons s argv' => cases argv' <;> simp [commaSeparated, encodeString] at h
  | cons s argv ih =>
      cases argv' with
      | nil => cases argv <;> simp [commaSeparated, encodeString] at h
      | cons s' argv' =>
          cases argv with
          | nil =>
              cases argv' with
              | nil =>
                  obtain ⟨rfl, hback⟩ := encodeString_append_inj h
                  exact ⟨rfl, (List.cons.inj hback).2⟩
              | cons t' argv' =>
                  simp only [List.map_cons, List.map_nil, commaSeparated, List.append_assoc,
                    List.cons_append] at h
                  exact absurd (List.cons.inj (encodeString_append_inj h).2).1 (by decide)
          | cons t argv =>
              cases argv' with
              | nil =>
                  simp only [List.map_cons, List.map_nil, commaSeparated, List.append_assoc,
                    List.cons_append] at h
                  exact absurd (List.cons.inj (encodeString_append_inj h).2).1 (by decide)
              | cons t' argv' =>
                  simp only [List.map_cons, commaSeparated, List.append_assoc,
                    List.cons_append] at h ih
                  obtain ⟨rfl, hrest⟩ := encodeString_append_inj h
                  obtain ⟨hargv, hback⟩ := @ih (t' :: argv') (List.cons.inj hrest).2
                  exact ⟨by rw [hargv], hback⟩

theorem argvJson_append_inj {argv argv' : List String} {back back' : List Char}
    (h : argvJson argv ++ back = argvJson argv' ++ back') : argv = argv' ∧ back = back' := by
  simp only [argvJson, encodeArray, List.cons_append, List.append_assoc, List.cons.injEq, true_and,
    List.nil_append] at h
  exact commaSeparated_append_inj h

theorem lineFeed_notMem_argvJson (argv : List String) : '\n' ∉ argvJson argv := by
  simp only [argvJson, encodeArray, List.mem_cons, List.cons_append, List.mem_append,
    List.not_mem_nil, or_false, not_or]
  refine ⟨by decide, fun hmem => ?_, by decide⟩
  rcases mem_commaSeparated hmem with hcomma | ⟨piece, hpiece, hmem⟩
  · exact absurd hcomma (by decide)
  · obtain ⟨s, _, rfl⟩ := List.mem_map.mp hpiece
    exact lineFeed_notMem_encodeString s hmem

theorem endsNumber_append {label : List Char} (hlabel : label.head?.any Char.isDigit = false)
    (hne : label ≠ []) (back : List Char) : EndsNumber (label ++ back) := by
  obtain ⟨c, label, rfl⟩ := List.exists_cons_of_ne_nil hne
  exact endsNumber_cons hlabel

theorem terminalLabel_append_inj {argv argv' : List String} {t t' m m' : ℕ} {back back' : List Char}
    (h : terminalLabel argv t m ++ back = terminalLabel argv' t' m' ++ back') :
    (argv = argv' ∧ t = t' ∧ m = m') ∧ back = back' := by
  have hms : ∀ back, EndsNumber (" ms\nOutput budget: ".toList ++ back) :=
    endsNumber_append (by decide) (by decide)
  have hbytes : ∀ back, EndsNumber
      (" bytes\n\nPoll/cancel do not authorize a new process.".toList ++ back) :=
    endsNumber_append (by decide) (by decide)
  unfold terminalLabel at h
  simp only [List.append_assoc, List.append_cancel_left_eq] at h
  obtain ⟨hargv, h⟩ := argvJson_append_inj h
  obtain ⟨ht, h⟩ := encodeNat_append_inj (hms _) (hms _) (List.append_cancel_left h)
  obtain ⟨hm, h⟩ := encodeNat_append_inj (hbytes _) (hbytes _) (List.append_cancel_left h)
  exact ⟨⟨hargv, ht, hm⟩, List.append_cancel_left (List.append_cancel_left h)⟩

theorem pidLabel_append_inj {pid pid' : ℕ} {back back' : List Char}
    (h : pidLabel pid ++ back = pidLabel pid' ++ back') : pid = pid' ∧ back = back' := by
  have hplan : ∀ back, EndsNumber ("\nPlan SHA-256: ".toList ++ back) :=
    endsNumber_append (by decide) (by decide)
  unfold pidLabel at h
  simp only [List.append_assoc, List.append_cancel_left_eq] at h
  obtain ⟨hpid, h⟩ := encodeNat_append_inj (hplan _) (hplan _) h
  exact ⟨hpid, List.append_cancel_left h⟩

theorem ending_append_inj {digest : Digest32} {n n' : ℕ} {front front' : List Char}
    (h : front ++ ending digest n = front' ++ ending digest n') : front = front' ∧ n = n' := by
  have hlabel : "\nExpires (Unix ms): ".toList = "\nExpires (Unix ms):".toList ++ [' '] := by
    decide
  have hblank : ∀ n, ' ' ∉ encodeNat n := fun n hmem =>
    absurd (isDigit_of_mem_encodeNat hmem) (by decide)
  unfold ending at h
  simp only [hlabel, ← List.append_assoc, List.append_cancel_right_eq] at h
  rw [List.append_assoc _ [' '], List.append_assoc _ [' ']] at h
  obtain ⟨hfront, hn⟩ := append_cons_inj_right (hblank n) (hblank n') h
  refine ⟨?_, encodeNat_injective hn⟩
  exact List.append_cancel_right (List.append_cancel_right (List.append_cancel_right hfront))

/-- A label that begins nowhere in itself nor in what follows it. -/
theorem noStart_tail {label back : List Char} (hne : label ≠ []) (hlabel : NoStart label label.tail)
    (hback : NoStart label back) : NoStart label (label ++ back).tail := by
  rw [List.tail_append_of_ne_nil hne]
  exact hlabel.append hback

theorem separates_terminalLabels : Separates terminalLabels := by
  have hmarker : "\n\nARGV (structured JSON):".toList =
      '\n' :: "\nARGV (structured JSON):".toList := by decide
  have hlabel : "\n\nARGV (structured JSON):\n".toList =
      "\n\nARGV (structured JSON):".toList ++ ['\n'] := by decide
  have hjson : ∀ argv, NoStart "\n\nARGV (structured JSON):".toList ('\n' :: argvJson argv) := by
    intro argv i hi
    cases i with
    | zero => rw [hmarker]; rfl
    | succ i =>
        rw [hmarker]
        exact noStart_of_notMem (lineFeed_notMem_argvJson argv) i (Nat.lt_of_succ_lt_succ hi)
  have hnat : ∀ n, NoStart "\n\nARGV (structured JSON):".toList (encodeNat n) := by
    intro n
    rw [hmarker]
    exact noStart_of_notMem (lineFeed_notMem_encodeNat n)
  apply @separates_of_marker Char _ "\n\nARGV (structured JSON):".toList
  · rintro _ ⟨argv, timeoutMs, maxOutputBytes, _, _, rfl⟩
    unfold terminalLabel
    rw [hlabel, List.append_assoc]
    refine ⟨List.prefix_append _ _, noStart_tail (by decide) (by decide) ?_⟩
    refine (hjson argv).append (.append (by decide) ((hnat timeoutMs).append ?_))
    refine .append (by decide) ((hnat maxOutputBytes).append ?_)
    exact .append (by decide) (by decide)
  · rintro _ _ v v' ⟨argv, t, m, _, _, rfl⟩ ⟨argv', t', m', _, _, rfl⟩ htext
    obtain ⟨⟨rfl, rfl, rfl⟩, _⟩ := terminalLabel_append_inj htext
    rfl

theorem separates_pidLabels : Separates pidLabels := by
  have hmarker : "\n\nCurrent PID: ".toList = '\n' :: "\nCurrent PID: ".toList := by decide
  apply @separates_of_marker Char _ "\n\nCurrent PID: ".toList
  · rintro _ ⟨currentPid, _, rfl⟩
    unfold pidLabel
    refine ⟨List.prefix_append _ _, noStart_tail (by decide) (by decide) ?_⟩
    refine .append ?_ (by decide)
    rw [hmarker]
    exact noStart_of_notMem (lineFeed_notMem_encodeNat currentPid)
  · rintro _ _ v v' ⟨pid, _, rfl⟩ ⟨pid', _, rfl⟩ htext
    obtain ⟨rfl, _⟩ := pidLabel_append_inj htext
    rfl

theorem separates_places (action : String) : ∀ labels ∈ places action, Separates labels := by
  have hsingle := fun label : List Char => separates_singleton label
  unfold places actionPlaces commonPlaces
  split_ifs
  all_goals
    simp only [List.cons_append, List.nil_append, List.forall_mem_cons, List.not_mem_nil,
      false_imp_iff, implies_true, and_true, hsingle, separates_terminalLabels,
      separates_pidLabels]

/-- The heading tells the action. -/
theorem heading_append_inj {action action' : String} {back back' : List Char}
    (haction : action ∈ signedActions) (haction' : action' ∈ signedActions)
    (h : heading action ++ back = heading action' ++ back') : action = action' ∧ back = back' := by
  have hclash : ∀ action ∈ signedActions, ∀ action' ∈ signedActions,
      action = action' ∨ clashes (heading action) (heading action') = true := by decide
  rcases hclash action haction action' haction' with rfl | hclash
  · exact ⟨rfl, List.append_cancel_left h⟩
  · exact absurd h (clashes_append hclash back back')

/-! ### The parts tell what is shown -/

theorem eq_of_upToActor {details details' : Details} {actorId actorId' : String}
    (haction : details.action = details'.action) (hvalid : details.Valid) (hvalid' : details'.Valid)
    (hfirst : details.first = details'.first)
    (hrest : details.upToActor actorId = details'.upToActor actorId') :
    details = details' ∧ actorId = actorId' := by
  cases details with
  | write target contentSha256 expectedTargetSha256 =>
      cases details' with
      | write target' contentSha256' expectedTargetSha256' =>
          simp only [Details.upToActor, List.cons.injEq, Prod.mk.injEq, String.toList_inj, true_and,
            and_true] at hrest
          obtain ⟨rfl, rfl, rfl⟩ := hrest
          rw [String.toList_injective hfirst]
          simp
      | terminal => exact absurd haction (by simp [Details.action])
      | maintenance =>
          exact absurd haction (Ne.symm (Details.Valid.maintenance hvalid'.1).1)
  | terminal cwd argv timeoutMs maxOutputBytes =>
      cases details' with
      | write => exact absurd haction (by simp [Details.action])
      | terminal cwd' argv' timeoutMs' maxOutputBytes' =>
          simp only [Details.upToActor, List.cons.injEq, Prod.mk.injEq, String.toList_inj,
            and_true] at hrest
          obtain ⟨hlabel, rfl⟩ := hrest
          obtain ⟨⟨rfl, rfl, rfl⟩, _⟩ := terminalLabel_append_inj (congrArg (· ++ []) hlabel)
          rw [String.toList_injective hfirst]
          simp
      | maintenance =>
          exact absurd haction (Ne.symm (Details.Valid.maintenance hvalid'.1).2)
  | maintenance action target stagedExecutable allowedRoot currentPid planSha256 currentSha256
      stagedSha256 =>
      cases details' with
      | write => exact absurd haction (Details.Valid.maintenance hvalid.1).1
      | terminal => exact absurd haction (Details.Valid.maintenance hvalid.1).2
      | maintenance =>
          simp only [Details.upToActor, List.cons.injEq, Prod.mk.injEq, String.toList_inj, true_and,
            and_true] at hrest
          obtain ⟨rfl, rfl, ⟨hpid, rfl⟩, rfl, rfl, rfl⟩ := hrest
          obtain ⟨rfl, _⟩ := pidLabel_append_inj (congrArg (· ++ []) hpid)
          obtain rfl : action = _ := haction
          rw [String.toList_injective hfirst]
          simp

theorem eq_of_rest {shown shown' : Displayed} (hvalid : shown.details.Valid)
    (hvalid' : shown'.details.Valid) (haction : shown.details.action = shown'.details.action)
    (hfirst : shown.details.first = shown'.details.first) (hrest : shown.rest = shown'.rest)
    (hexpires : shown.expiresAtUnixMs = shown'.expiresAtUnixMs) : shown = shown' := by
  obtain ⟨hupTo, hcommon⟩ := List.append_inj' hrest rfl
  obtain ⟨hdetails, hactor⟩ := eq_of_upToActor haction hvalid hvalid' hfirst hupTo
  simp only [List.cons.injEq, Prod.mk.injEq, String.toList_inj, true_and, and_true] at hcommon
  obtain ⟨hdevice, horganization, hpolicy, hcapability, hrequest⟩ := hcommon
  cases shown
  cases shown'
  simp_all

/-- Whatever strings stand between the labels up to the actor, some details show them. -/
theorem exists_details {action : String} (haction : action ∈ signedActions) (first : List Char)
    {rest : List (List Char × List Char)} (hfits : Fits (actionPlaces action) rest) :
    ∃ (details : Details) (actorId : String), details.Valid ∧ details.action = action ∧
      details.first = first ∧ details.upToActor actorId = rest := by
  by_cases hwrite : action = "filesystem.write"
  · rw [actionPlaces, if_pos hwrite] at hfits
    obtain ⟨content, _, hfits₁, rfl⟩ := exists_of_fits_singleton hfits
    obtain ⟨expected, _, hfits₂, rfl⟩ := exists_of_fits_singleton hfits₁
    obtain ⟨actor, _, hfits₃, rfl⟩ := exists_of_fits_singleton hfits₂
    obtain rfl := fits_nil_iff.mp hfits₃
    refine ⟨.write (.ofList first) (.ofList content) (.ofList expected), .ofList actor, trivial,
      hwrite.symm, String.toList_ofList, ?_⟩
    simp only [Details.upToActor, String.toList_ofList]
  · by_cases hterminal : action = "terminal.exec"
    · rw [actionPlaces, if_neg hwrite, if_pos hterminal] at hfits
      obtain ⟨⟨_, actor⟩, _,
        ⟨argv, timeoutMs, maxOutputBytes, htimeout, houtput, rfl⟩, hfits₁, rfl⟩ :=
        fits_cons_iff.mp hfits
      obtain rfl := fits_nil_iff.mp hfits₁
      refine ⟨.terminal (.ofList first) argv timeoutMs maxOutputBytes, .ofList actor,
        ⟨htimeout, houtput⟩, hterminal.symm, String.toList_ofList, ?_⟩
      simp only [Details.upToActor, String.toList_ofList]
    · rw [actionPlaces, if_neg hwrite, if_neg hterminal] at hfits
      obtain ⟨executable, _, hfits₁, rfl⟩ := exists_of_fits_singleton hfits
      obtain ⟨root, _, hfits₂, rfl⟩ := exists_of_fits_singleton hfits₁
      obtain ⟨⟨_, plan⟩, _, ⟨currentPid, hpid, rfl⟩, hfits₃, rfl⟩ := fits_cons_iff.mp hfits₂
      obtain ⟨current, _, hfits₄, rfl⟩ := exists_of_fits_singleton hfits₃
      obtain ⟨staged, _, hfits₅, rfl⟩ := exists_of_fits_singleton hfits₄
      obtain ⟨actor, _, hfits₆, rfl⟩ := exists_of_fits_singleton hfits₅
      obtain rfl := fits_nil_iff.mp hfits₆
      have hmaintenance : action ∈ ["maintenance.apply", "maintenance.recover"] := by
        simpa [signedActions, hwrite, hterminal] using haction
      refine ⟨.maintenance action (.ofList first) (.ofList executable) (.ofList root) currentPid
        (.ofList plan) (.ofList current) (.ofList staged), .ofList actor, ⟨hmaintenance, hpid⟩, rfl,
        String.toList_ofList, ?_⟩
      simp only [Details.upToActor, String.toList_ofList]

theorem exists_displayed {action : String} (haction : action ∈ signedActions) (first : List Char)
    {rest : List (List Char × List Char)} (hfits : Fits (places action) rest)
    (expiresAtUnixMs : ℕ) : ∃ shown : Displayed, shown.details.Valid ∧
      shown.details.action = action ∧ shown.details.first = first ∧ shown.rest = rest ∧
      shown.expiresAtUnixMs = expiresAtUnixMs := by
  have hupTo := List.forall₂_take (actionPlaces action).length hfits
  have hcommon := List.forall₂_drop (actionPlaces action).length hfits
  rw [places, List.take_left] at hupTo
  rw [places, List.drop_left] at hcommon
  have hsplit := List.take_append_drop (actionPlaces action).length rest
  obtain ⟨details, actorId, hvalid, hdetails, hfirst, hactor⟩ := exists_details haction first hupTo
  generalize rest.drop (actionPlaces action).length = common at hcommon hsplit
  obtain ⟨device, _, hcommon₁, rfl⟩ := exists_of_fits_singleton hcommon
  obtain ⟨organization, _, hcommon₂, rfl⟩ := exists_of_fits_singleton hcommon₁
  obtain ⟨policy, _, hcommon₃, rfl⟩ := exists_of_fits_singleton hcommon₂
  obtain ⟨capability, _, hcommon₄, rfl⟩ := exists_of_fits_singleton hcommon₃
  obtain ⟨request, _, hcommon₅, rfl⟩ := exists_of_fits_singleton hcommon₄
  obtain rfl := fits_nil_iff.mp hcommon₅
  refine ⟨⟨details, actorId, .ofList device, .ofList organization, .ofList policy,
    .ofList capability, .ofList request, expiresAtUnixMs⟩, hvalid, hdetails, hfirst, ?_, rfl⟩
  simp only [Displayed.rest, hactor, String.toList_ofList]
  exact hsplit

/-! ### What is shown comes from a request -/

/-- The parameters of a request that shows some details. -/
def Details.parameters : Details → Parameters
  | .write _ contentSha256 expectedTargetSha256 =>
      ((∅ : Parameters).insert "content_sha256" (.string contentSha256)).insert
        "expected_target_sha256" (.string expectedTargetSha256)
  | .terminal _ argv timeoutMs maxOutputBytes =>
      (((∅ : Parameters).insert "argv" (.array (argv.map .string))).insert "timeout_ms"
        (.posInt timeoutMs)).insert "max_output_bytes" (.posInt maxOutputBytes)
  | .maintenance _ _ stagedExecutable allowedRoot currentPid planSha256 currentSha256
      stagedSha256 =>
      ((((((∅ : Parameters).insert "plan_sha256" (.string planSha256)).insert
        "expected_current_sha256" (.string currentSha256)).insert
        "expected_staged_sha256" (.string stagedSha256)).insert
        "staged_executable" (.string stagedExecutable)).insert
        "allowed_root" (.string allowedRoot)).insert "current_pid" (.posInt currentPid)

/-- Another request with the expiry and the digest of one. -/
def Displayed.request (shown : Displayed) (request : ActionRequest) : ActionRequest :=
  { request with
    envelope :=
      { request.envelope with
        requestId := shown.requestId
        organizationId := shown.organizationId
        actorId := shown.actorId
        deviceId := shown.deviceId
        action := shown.details.action
        target := String.ofList shown.details.first
        parameters := shown.details.parameters } }

/-- Another challenge with the expiry and the digest of one. -/
def Displayed.challenge (shown : Displayed) (challenge : ApprovalChallenge) : ApprovalChallenge :=
  { challenge with
    requestId := shown.requestId
    policyId := shown.policyId
    requiredCapability := some shown.capability }

theorem mapM_asStr (argv : List String) (message : String) :
    ((argv.map Value.string).mapM fun value => orFail value.asStr message) = .ok argv := by
  induction argv with
  | nil => rfl
  | cons s argv ih =>
      rw [List.map_cons, List.mapM_cons, ih]
      rfl

theorem requiredStringParameter_of_getElem? {request : ActionRequest} {name value : String}
    (h : request.envelope.parameters[name]? = some (.string value)) :
    requiredStringParameter request name = .ok value := by
  rw [requiredStringParameter, h]
  rfl

theorem requiredU64Parameter_of_getElem? {request : ActionRequest} {name : String} {n : ℕ}
    (hn : n < 2 ^ 64) (h : request.envelope.parameters[name]? = some (.posInt n)) :
    requiredU64Parameter request name = .ok n := by
  rw [requiredU64Parameter, h, Option.bind_some, Value.asU64, Option.filter_some,
    if_pos (decide_eq_true hn), orFail_some]

theorem readDetails_request {shown : Displayed} (hvalid : shown.details.Valid)
    (request : ActionRequest) : readDetails (shown.request request) = .ok shown.details := by
  have hparameters : (shown.request request).envelope.parameters = shown.details.parameters := rfl
  have haction : (shown.request request).envelope.action = shown.details.action := rfl
  have htarget : (shown.request request).envelope.target = String.ofList shown.details.first := rfl
  generalize shown.request request = made at *
  cases hdetails : shown.details with
  | write target contentSha256 expectedTargetSha256 =>
      rw [hdetails] at hparameters haction htarget
      obtain ⟨hcontent, hexpected⟩ :
          made.envelope.parameters["content_sha256"]? = some (.string contentSha256) ∧
          made.envelope.parameters["expected_target_sha256"]? =
            some (.string expectedTargetSha256) := by
        simp only [hparameters, Details.parameters, Std.ExtTreeMap.getElem?_insert,
          Std.LawfulEqCmp.compare_eq_iff_eq, String.reduceEq, if_false, if_true, and_self]
      simp only [readDetails, haction, htarget, Details.action, Details.first, if_true,
        requiredStringParameter_of_getElem? hcontent, requiredStringParameter_of_getElem? hexpected,
        ok_bind, String.ofList_toList]
      rfl
  | terminal cwd argv timeoutMs maxOutputBytes =>
      rw [hdetails] at hparameters haction htarget hvalid
      obtain ⟨hargv, htimeout, houtput⟩ :
          made.envelope.parameters["argv"]? = some (.array (argv.map .string)) ∧
          made.envelope.parameters["timeout_ms"]? = some (.posInt timeoutMs) ∧
          made.envelope.parameters["max_output_bytes"]? = some (.posInt maxOutputBytes) := by
        simp only [hparameters, Details.parameters, Std.ExtTreeMap.getElem?_insert,
          Std.LawfulEqCmp.compare_eq_iff_eq, String.reduceEq, if_false, if_true, and_self]
      simp only [readDetails, haction, htarget, Details.action, Details.first, String.reduceEq,
        if_false, if_true, hargv, Option.bind_some, Value.asArray, orFail_some, mapM_asStr,
        requiredU64Parameter_of_getElem? hvalid.1 htimeout,
        requiredU64Parameter_of_getElem? hvalid.2 houtput, ok_bind, String.ofList_toList]
      rfl
  | maintenance action target stagedExecutable allowedRoot currentPid planSha256 currentSha256
      stagedSha256 =>
      rw [hdetails] at hparameters haction htarget hvalid
      obtain ⟨hwrite, hterminal⟩ := Details.Valid.maintenance hvalid.1
      have hmaintenance := List.mem_pair.mp hvalid.1
      obtain ⟨hplan, hcurrent, hstaged, hexecutable, hroot, hpid⟩ :
          made.envelope.parameters["plan_sha256"]? = some (.string planSha256) ∧
          made.envelope.parameters["expected_current_sha256"]? = some (.string currentSha256) ∧
          made.envelope.parameters["expected_staged_sha256"]? = some (.string stagedSha256) ∧
          made.envelope.parameters["staged_executable"]? = some (.string stagedExecutable) ∧
          made.envelope.parameters["allowed_root"]? = some (.string allowedRoot) ∧
          made.envelope.parameters["current_pid"]? = some (.posInt currentPid) := by
        simp only [hparameters, Details.parameters, Std.ExtTreeMap.getElem?_insert,
          Std.LawfulEqCmp.compare_eq_iff_eq, String.reduceEq, if_false, if_true, and_self]
      simp only [readDetails, haction, htarget, Details.action, Details.first, if_neg hwrite,
        if_neg hterminal, if_pos hmaintenance, requiredStringParameter_of_getElem? hplan,
        requiredStringParameter_of_getElem? hcurrent, requiredStringParameter_of_getElem? hstaged,
        requiredStringParameter_of_getElem? hexecutable, requiredStringParameter_of_getElem? hroot,
        requiredU64Parameter_of_getElem? hvalid.2 hpid, ok_bind, String.ofList_toList]
      rfl

/-- What has valid details is shown by a request and a challenge that are bound. -/
theorem exists_prepared {request : ActionRequest} {challenge : ApprovalChallenge} {nowUnixMs : ℕ}
    (haccepted : validateBinding request challenge nowUnixMs = .ok ()) {shown : Displayed}
    (hvalid : shown.details.Valid) (hexpires : shown.expiresAtUnixMs = challenge.expiresAtUnixMs) :
    ∃ request' challenge', validateBinding request' challenge' nowUnixMs = .ok () ∧
      displayed request' challenge' = .ok shown := by
  obtain ⟨_, _, hdigest, hexpiry⟩ := validateBinding_eq_ok.mp haccepted
  refine ⟨shown.request request, shown.challenge challenge, validateBinding_eq_ok.mpr ?_, ?_⟩
  · exact ⟨hvalid.signed, rfl, hdigest, hexpiry⟩
  · rw [displayed, readDetails_request hvalid, ok_bind]
    cases shown
    cases hexpires
    rfl

/-! ### Telling what is shown -/

/-- The challenge with a digest of zeros, so that the line of the digest is always the same. -/
def ApprovalChallenge.blank (challenge : ApprovalChallenge) : ApprovalChallenge :=
  { challenge with envelopeDigest := Vector.replicate 32 0 }

/-- Where the text is the same apart from the line of the digest, the same is shown. -/
def Unambiguous (request : ActionRequest) (challenge : ApprovalChallenge) : Prop :=
  ∀ request' challenge' nowUnixMs', validateBinding request' challenge' nowUnixMs' = .ok () →
    ∀ text, approvalSummary request (ApprovalChallenge.blank challenge) = .ok text →
      approvalSummary request' (ApprovalChallenge.blank challenge') = .ok text →
      displayed request' challenge' = displayed request challenge

/-- What may stand between two strings stands nowhere else in them and between them. -/
def Displayed.Clean (shown : Displayed) : Prop :=
  Text.Clean (places shown.details.action) shown.details.first shown.rest

section Unambiguous

variable {request : ActionRequest} {challenge : ApprovalChallenge} {shown : Displayed}

theorem displayed_eq_ok (h : displayed request challenge = .ok shown) :
    shown.details.Valid ∧ shown.expiresAtUnixMs = challenge.expiresAtUnixMs := by
  rw [displayed, bind_eq_ok] at h
  obtain ⟨details, hdetails, h⟩ := h
  obtain rfl := Except.ok.inj h
  exact ⟨(readDetails_valid hdetails).1, rfl⟩

theorem approvalSummary_blank (h : displayed request challenge = .ok shown) :
    approvalSummary request (ApprovalChallenge.blank challenge) =
      .ok (shown.text (Vector.replicate 32 0)) := by
  have hblank : displayed request (ApprovalChallenge.blank challenge) = .ok shown := h
  rw [approvalSummary, hblank, ok_bind]
  rfl

theorem displayed_of_approvalSummary {text : String}
    (h : approvalSummary request (ApprovalChallenge.blank challenge) = .ok text) :
    ∃ shown, displayed request challenge = .ok shown ∧
      text = shown.text (Vector.replicate 32 0) := by
  rw [approvalSummary, bind_eq_ok] at h
  obtain ⟨shown, hshown, h⟩ := h
  exact ⟨shown, hshown, (Except.ok.inj h).symm⟩

/-- Texts with one digest are the same if and only if their parts are. -/
theorem text_eq_iff {shown shown' : Displayed} (hvalid : shown.details.Valid)
    (hvalid' : shown'.details.Valid) (digest : Digest32) :
    shown'.text digest = shown.text digest ↔
      shown'.details.action = shown.details.action ∧
      joinFields shown'.details.first shown'.rest = joinFields shown.details.first shown.rest ∧
      shown'.expiresAtUnixMs = shown.expiresAtUnixMs := by
  rw [← String.toList_inj, toList_text hvalid, toList_text hvalid']
  constructor
  · intro htext
    obtain ⟨haction, hrest⟩ := heading_append_inj hvalid'.signed hvalid.signed htext
    obtain ⟨hfields, hexpires⟩ := ending_append_inj hrest
    exact ⟨haction, hfields, hexpires⟩
  · rintro ⟨haction, hfields, hexpires⟩
    rw [haction, hfields, hexpires]

/-- The text that an approver is shown tells the action, the strings and the numbers in it
if and only if what may stand between two strings stands nowhere else next to it. -/
theorem unambiguous_iff {nowUnixMs : ℕ}
    (haccepted : validateBinding request challenge nowUnixMs = .ok ())
    (hshown : displayed request challenge = .ok shown) :
    Unambiguous request challenge ↔ shown.Clean := by
  obtain ⟨hvalid, hexpires⟩ := displayed_eq_ok hshown
  have hplaces := separates_places shown.details.action
  constructor
  · intro h
    refine clean_of_unique (fits_rest hvalid) fun first' rest' hfits' htext => ?_
    obtain ⟨shown', hvalid', haction, rfl, rfl, hexpires'⟩ :=
      exists_displayed hvalid.signed first' hfits' shown.expiresAtUnixMs
    obtain ⟨request', challenge', haccepted', hshown'⟩ :=
      exists_prepared haccepted hvalid' (hexpires'.trans hexpires)
    have hsame := h request' challenge' nowUnixMs haccepted' _ (approvalSummary_blank hshown)
      (by rw [approvalSummary_blank hshown', (text_eq_iff hvalid hvalid' _).mpr
        ⟨haction, htext, hexpires'⟩])
    rw [hshown, hshown'] at hsame
    rw [Except.ok.inj hsame]
    exact ⟨rfl, rfl⟩
  · intro hclean request' challenge' nowUnixMs' _ text htext htext'
    obtain ⟨shown', hshown', rfl⟩ := displayed_of_approvalSummary htext'
    have hvalid' := (displayed_eq_ok hshown').1
    rw [approvalSummary_blank hshown, Except.ok.injEq] at htext
    obtain ⟨haction, hfields, hexpires'⟩ := (text_eq_iff hvalid hvalid' _).mp htext.symm
    have hfits' := fits_rest hvalid'
    rw [haction] at hfits'
    obtain ⟨hfirst, hrest⟩ := hclean.unique hplaces (fits_rest hvalid) hfits' hfields
    rw [hshown, hshown', eq_of_rest hvalid' hvalid haction hfirst hrest hexpires']

/-- Strings without line feeds are told from the text. -/
theorem clean_of_lineFeed_notMem (hvalid : shown.details.Valid)
    (hfirst : '\n' ∉ shown.details.first) (hrest : ∀ entry ∈ shown.rest, '\n' ∉ entry.2) :
    shown.Clean := by
  have hterminal : ∃ n, ∀ s ∈ terminalLabels, s.head? = some '\n' ∧ s.count '\n' = n := by
    refine ⟨10, ?_⟩
    rintro _ ⟨argv, timeoutMs, maxOutputBytes, _, _, rfl⟩
    refine ⟨rfl, ?_⟩
    unfold terminalLabel
    simp only [List.count_append, List.count_eq_zero.mpr (lineFeed_notMem_argvJson argv),
      List.count_eq_zero.mpr (lineFeed_notMem_encodeNat _)]
    decide
  have hpid : ∃ n, ∀ s ∈ pidLabels, s.head? = some '\n' ∧ s.count '\n' = n := by
    refine ⟨3, ?_⟩
    rintro _ ⟨currentPid, _, rfl⟩
    refine ⟨rfl, ?_⟩
    unfold pidLabel
    simp only [List.count_append, List.count_eq_zero.mpr (lineFeed_notMem_encodeNat currentPid)]
    decide
  have hsingle : ∀ label : List Char, label.head? = some '\n' →
      ∃ n, ∀ s ∈ ({label} : Set (List Char)), s.head? = some '\n' ∧ s.count '\n' = n := by
    rintro label hlabel
    refine ⟨label.count '\n', ?_⟩
    rintro _ rfl
    exact ⟨hlabel, rfl⟩
  refine clean_of_notMem ?_ (fits_rest hvalid) hfirst hrest
  unfold places actionPlaces commonPlaces
  split_ifs
  all_goals
    simp only [List.cons_append, List.nil_append, List.forall_mem_cons, List.not_mem_nil,
      false_imp_iff, implies_true, and_true]
  · and_intros <;> exact hsingle _ (by decide)
  · refine ⟨hterminal, ?_⟩
    and_intros <;> exact hsingle _ (by decide)
  · refine ⟨hsingle _ (by decide), hsingle _ (by decide), hpid, ?_⟩
    and_intros <;> exact hsingle _ (by decide)

end Unambiguous

namespace SummarySample

def base : ActionRequest where
  envelope :=
    { requestId := "request", organizationId := "local", actorId := "agent", deviceId := "device"
      action := "filesystem.write", target := "C:\\work\\a.txt", parameters := ∅
      requestedCapabilities := [], expiresAtUnixMs := 1000, nonce := List.replicate 16 7 }
  envelopeDigest := Vector.replicate 32 0

def challenge : ApprovalChallenge where
  requestId := "request"
  envelopeDigest := Vector.replicate 32 0
  policyId := "policy"
  requiredCapability := none
  expiresAtUnixMs := 1000
  approvalNonce := Vector.replicate 32 0

/-- A write of an actor from a device. -/
def shown (actorId deviceId : String) : Displayed where
  details := .write "C:\\work\\a.txt" "00" "absent"
  actorId := actorId
  deviceId := deviceId
  organizationId := "local"
  policyId := "policy"
  capability := "approval"
  requestId := "request"
  expiresAtUnixMs := 1000

theorem base_accepted : validateBinding base challenge 0 = .ok () := by decide

theorem shown_accepted (actorId deviceId : String) : ∃ request' challenge',
    validateBinding request' challenge' 0 = .ok () ∧
    displayed request' challenge' = .ok (shown actorId deviceId) :=
  exists_prepared base_accepted trivial rfl

end SummarySample

open SummarySample in
theorem unambiguous_iff_plain : ∃ request challenge,
    displayed request challenge = .ok (shown "agent" "device") ∧
    Unambiguous request challenge := by
  obtain ⟨request, challenge, haccepted, hshown⟩ := shown_accepted "agent" "device"
  refine ⟨request, challenge, hshown, (unambiguous_iff haccepted hshown).mpr ?_⟩
  exact clean_of_lineFeed_notMem trivial (by decide) (by decide)

open SummarySample in
/-- An actor that has a label in its name is taken for another actor on another device. -/
theorem ambiguous_actor : ∃ request challenge request' challenge',
    validateBinding request challenge 0 = .ok () ∧
    validateBinding request' challenge' 0 = .ok () ∧
    displayed request challenge = .ok (shown "a\nDevice: d" "e") ∧
    displayed request' challenge' = .ok (shown "a" "d\nDevice: e") ∧
    approvalSummary request (ApprovalChallenge.blank challenge) =
      approvalSummary request' (ApprovalChallenge.blank challenge') ∧
    ¬ Unambiguous request challenge := by
  obtain ⟨request, challenge, haccepted, hshown⟩ := shown_accepted "a\nDevice: d" "e"
  obtain ⟨request', challenge', haccepted', hshown'⟩ := shown_accepted "a" "d\nDevice: e"
  have htext : (shown "a\nDevice: d" "e").text (Vector.replicate 32 0) =
      (shown "a" "d\nDevice: e").text (Vector.replicate 32 0) := by decide +kernel
  have hsummary := approvalSummary_blank hshown
  have hsummary' := approvalSummary_blank hshown'
  refine ⟨request, challenge, request', challenge', haccepted, haccepted', hshown, hshown',
    by rw [hsummary, hsummary', htext], fun h => ?_⟩
  have hsame := h request' challenge' 0 haccepted' _ hsummary (by rw [hsummary', htext])
  rw [hshown, hshown'] at hsame
  exact absurd (Except.ok.inj hsame) (by decide)

end VorCommander.Approver
