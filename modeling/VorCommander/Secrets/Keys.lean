import VorCommander.Secrets.Refinement

/-!
The key of an enrolled device.

The key that a request for a certificate was made for is kept: it is the key that is
loaded, until a secret is put in its place or it is deleted. No other enrolment replaces it.
-/

namespace VorCommander

open Steps Steps.Program Text WindowsPath

namespace SecretCall

variable {H : SecretHost} {c : SecretCall} {r : Option (Except IdentityError c.Result)}
  {m m' : SecretMap} {keyName : String} {key : List UInt8}

/-- The call puts or deletes a secret with this name. -/
def Writes (name : String) : SecretCall → Prop
  | .put name' _ | .delete name' => toAsciiLowercase name' = toAsciiLowercase name
  | _ => False

theorem Writes.congr {name name' : String} (h : c.Writes name)
    (hname : toAsciiLowercase name = toAsciiLowercase name') : c.Writes name' := by
  cases c with
  | put _ _ | delete _ => exact Eq.trans h hname
  | _ => exact h

/-- What a call can do with the map. -/
theorem Effect.changes (h : c.Effect H r m m') :
    m' = m ∨ ∃ name secret, m' = m.set name secret ∧ (c.Writes name ∨ m.get name = none) := by
  cases c with
  | put name secret =>
      rcases r with _ | _ | _
      · exact h.imp id fun h => ⟨name, _, h, .inl rfl⟩
      · exact h.imp id fun h => ⟨name, _, h, .inl rfl⟩
      · exact .inr ⟨name, _, h, .inl rfl⟩
  | delete name =>
      rcases r with _ | _ | _
      · exact h.imp id fun h => ⟨name, _, h, .inl rfl⟩
      · exact h.imp id fun h => ⟨name, _, h, .inl rfl⟩
      · exact .inr ⟨name, _, h.1, .inl rfl⟩
  | get name => rcases r with _ | _ | _ <;> exact .inl (by first | exact h | exact h.1)
  | loadKey name => rcases r with _ | _ | _ <;> exact .inl (by first | exact h | exact h.1)
  | contains name => rcases r with _ | _ | _ <;> exact .inl (by first | exact h | exact h.1)
  | enroll name deviceId =>
      rcases r with _ | _ | _
      · exact h.imp id fun ⟨hnone, _, h⟩ => ⟨name, _, h, .inr hnone⟩
      · exact h.imp id fun ⟨hnone, _, h⟩ => ⟨name, _, h, .inr hnone⟩
      · obtain ⟨hnone, _, -, -, h⟩ := h
        exact .inr ⟨name, _, h, .inr hnone⟩

/-- A key that is there is not replaced. -/
theorem Effect.kept (h : c.Effect H r m m') (hc : ¬ c.Writes keyName)
    (hkey : m.get keyName = some key) : m'.get keyName = some key := by
  rcases h.changes with rfl | ⟨name, secret, rfl, hname⟩
  · exact hkey
  · have hne : toAsciiLowercase keyName ≠ toAsciiLowercase name := by
      intro heq
      rcases hname with hwrites | hnone
      · exact hc (hwrites.congr heq.symm)
      · rw [m.get_congr heq.symm, hkey] at hnone
        cases hnone
    rw [m.get_set_of_ne secret hne, hkey]

end SecretCall

namespace SecretSample

theorem loaded : Trace (SecretFiles.Commit host directory) (SameIn directory) (fun _ => none)
    (SecretCall.program directory)
    [⟨.loadKey "key", some (.ok [1, 2, 3])⟩, ⟨.enroll "key" "device", some (.ok enrollment)⟩]
    (exec plain (SecretCall.program directory (.loadKey "key")) files).2 := by
  obtain ⟨h, hruns, -⟩ := runs_of_exec (s := files) (h := []) (plain_sound directory)
    (SecretCall.program directory (.loadKey "key"))
  exact .returned enrolled hruns

end SecretSample

/-- The key of an enrolment stays, and is what is loaded. -/
theorem enrolled_key_kept {H : SecretHost} {directory : String} {init : FileSystem} {m : SecretMap}
    (hinit : Reflects H (H.canonical directory) m init)
    {later earlier : List (Σ c : SecretCall, Option (Except IdentityError c.Result))}
    {keyName deviceId : String} {enrollment : DeviceEnrollment} {s : FileSystem}
    (hs : Trace (SecretFiles.Commit H (H.canonical directory)) (SameIn (H.canonical directory)) init
      (SecretCall.program directory)
      (later ++ ⟨.enroll keyName deviceId, some (.ok enrollment)⟩ :: earlier) s)
    (hlater : ∀ entry ∈ later, ¬ entry.1.Writes keyName) :
    ∃ key, H.IsRequest enrollment.csrDer key deviceId ∧
      Stored H (some key) (s (fileKey (secretPath (H.canonical directory) keyName))) ∧
      ∀ name loaded, toAsciiLowercase name = toAsciiLowercase keyName →
        ⟨.loadKey name, some (.ok loaded)⟩ ∈ later → loaded = key := by
  obtain ⟨m', hlog, hreflects⟩ := hs.explained
    (R := fun s m => Reflects H (H.canonical directory) m s) hinit
    (fun _ _ _ h hsame => h.of_sameIn hsame) SecretCall.effect_none
    fun c _ => SecretCall.triple_program rfl c
  obtain ⟨m₁, hbefore, hafter⟩ := hlog.append
  obtain ⟨key, hcsr, hkey⟩ : ∃ key, H.IsRequest enrollment.csrDer key deviceId ∧
      m₁.get keyName = some key := by
    cases hbefore with
    | call _ heffect =>
        obtain ⟨-, key, -, hcsr, rfl⟩ := heffect
        exact ⟨key, hcsr, SecretMap.get_set_self ..⟩
  obtain ⟨hfinal, hthroughout⟩ := hafter.invariant (J := fun m => m.get keyName = some key) hkey
    fun c r m m' hmem heffect => heffect.kept (hlater _ hmem)
  refine ⟨key, hcsr, hfinal ▸ hreflects keyName, fun name loaded hname hmem => ?_⟩
  obtain ⟨m₂, m₃, hm₂, -, hloaded⟩ := hthroughout _ _ hmem
  rw [m₂.get_congr hname, hm₂] at hloaded
  exact (Option.some.inj hloaded).symm

open SecretSample in
/-- The key of the device is loaded again. -/
theorem enrolled_key_kept_loaded : host.IsRequest enrollment.csrDer [1, 2, 3] "device" := by
  obtain ⟨key, hrequest, -, hloaded⟩ := @enrolled_key_kept host directory (fun _ => none)
    (fun _ => none) (fun _ => .absent) [⟨.loadKey "key", some (.ok [1, 2, 3])⟩] [] "key" "device"
    enrollment _ loaded (by simp [SecretCall.Writes])
  rw [hloaded "key" [1, 2, 3] rfl List.mem_cons_self]
  exact hrequest

end VorCommander
