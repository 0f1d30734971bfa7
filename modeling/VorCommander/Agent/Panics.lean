import VorCommander.Agent.Loops
import VorCommander.Hub.Working
import VorCommander.Steps.Machine

/-!
Dispatcher calls that panic.

The loops of a device share one dispatcher. A panic under the lock ends the session
it happens in, in both loops. After that the loop of the private link clears the
poison, but the loop of the relay takes no poisoned lock: every request that comes
in over it is lost, and its session with it. So a device does with its events what
it would do if the calls had returned errors exactly if no request comes in over
the relay while the lock is poisoned.
-/

namespace VorCommander

open Crypto Steps Text

variable {P : Primitives} {C : FrameCodec} {ε ε' γ σ δ : Type} {mutex : Mutex δ}
  {calls : DispatcherCalls ε δ} {error : DispatchError} {o : LoopSurroundings ε}

/-- The calls return an error where they would panic. -/
def DispatcherCalls.returning (error : DispatchError) (calls : DispatcherCalls ε δ) :
    DispatcherCalls ε δ :=
  fun o asked => Steps.returning error (calls o asked)

/-! ### One turn -/

/-- Two turns differ only in the error that they end with, and in the poison. -/
structure Turn.Same (turn turn' : Turn ε σ δ) : Prop where
  next : turn'.next.toOption = turn.next.toOption
  mutex : turn'.mutex = turn.mutex.unpoisoned
  dispatched : turn'.dispatched = turn.dispatched
  sent : turn'.sent = turn.sent

/-- The error that a session ends with is not looked at. -/
theorem Turn.Same.settle {turn turn' : Turn ε σ δ} (hsame : turn.Same turn') (attempt : ℕ)
    (failed : Phase γ σ) :
    turn'.settle attempt failed = ((turn.settle attempt failed).1,
      (turn.settle attempt failed).2.1, (turn.settle attempt failed).2.2.unpoisoned) := by
  have hnext := hsame.next
  unfold Turn.settle
  rw [hsame.mutex, hsame.dispatched, hsame.sent]
  cases h : turn.next with
  | error _ =>
      cases h' : turn'.next with
      | error _ => rfl
      | ok _ =>
          rw [h, h'] at hnext
          cases hnext
  | ok _ =>
      cases h' : turn'.next with
      | error _ =>
          rw [h, h'] at hnext
          cases hnext
      | ok _ =>
          rw [h, h'] at hnext
          obtain rfl := Option.some.inj hnext
          rfl

/-- A frame of the device's own is made from what a call has given, if it has given
anything. -/
theorem Turn.same_sending {α : Type} {r r' : Except ε α} {dispatched : Option Asked}
    {f : α → Except ε (σ × V1.RelayFrame)} {mutex mutex' : Mutex δ} (hr : r'.toOption = r.toOption)
    (hmutex : mutex' = mutex.unpoisoned) :
    (Turn.sending mutex dispatched (r >>= f)).Same
      (Turn.sending mutex' dispatched (r' >>= f)) := by
  subst hmutex
  cases r with
  | error _ =>
      cases r' with
      | error _ => exact ⟨rfl, rfl, rfl, rfl⟩
      | ok _ => cases hr
  | ok a =>
      cases r' with
      | error _ => cases hr
      | ok a' =>
          obtain rfl := Option.some.inj hr
          change (Turn.sending mutex dispatched (f a')).Same
            (Turn.sending mutex.unpoisoned dispatched (f a'))
          cases f a' <;> exact ⟨rfl, rfl, rfl, rfl⟩

@[simp] theorem Turn.settle_dispatched (turn : Turn ε σ δ) (attempt : ℕ) (failed : Phase γ σ) :
    (turn.settle attempt failed).1.dispatched = turn.dispatched := by
  unfold Turn.settle
  cases turn.next <;> rfl

@[simp] theorem Turn.sending_dispatched (mutex : Mutex δ) (dispatched : Option Asked)
    (sent : Except ε (σ × V1.RelayFrame)) :
    (Turn.sending mutex dispatched sent).dispatched = dispatched := by
  cases sent <;> rfl

/-! ### The relay -/

namespace RemoteClient

variable {config : RemoteConfig}

/-- What a loop is asked to dispatch by an event. -/
def asked (P : Primitives) (C : FrameCodec) (config : RemoteConfig) (o : LoopSurroundings ε) :
    LoopEvent SocketMessage → RemotePhase → Option Asked
  | .heard message, .serving _ session =>
      match work P C config session o.now o.sends message with
      | .ok (.dispatch _ asked) => some asked
      | _ => none
  | _, _ => none

theorem worker_of_not_poisoned (calls : DispatcherCalls ε δ) (o : ε) (asked : Asked)
    (h : mutex.poisoned = false) :
    (worker calls o asked mutex).1 = some asked ∧
      (worker calls o asked mutex).2.1.toOption = (mutex.hold (calls o asked)).1.result ∧
      (worker calls o asked mutex).2.2 = (mutex.hold (calls o asked)).2 := by
  unfold worker
  rw [Mutex.withLock_of_not_poisoned h]
  rcases (mutex.hold (calls o asked)) with ⟨_ | _ | _, _⟩ <;> exact ⟨rfl, rfl, rfl⟩

theorem hear_same {session : DispatchSession} {message : SocketMessage}
    (h : ∀ session' asked, work P C config session o.now o.sends message =
      .ok (.dispatch session' asked) → mutex.poisoned = false) :
    (hear P C config calls session o message mutex).Same
      (hear P C config (calls.returning error) session o message mutex.unpoisoned) := by
  unfold hear
  cases hwork : work P C config session o.now o.sends message with
  | error _ => exact ⟨rfl, rfl, rfl, rfl⟩
  | ok work =>
      cases work with
      | go session => exact ⟨rfl, rfl, rfl, rfl⟩
      | dispatch session' asked =>
          obtain ⟨hasked, hresult, hmutex⟩ :=
            worker_of_not_poisoned calls o.dispatcher asked (h _ _ hwork)
          obtain ⟨hasked', hresult', hmutex'⟩ := worker_of_not_poisoned (calls.returning error)
            o.dispatcher asked mutex.unpoisoned_poisoned
          obtain ⟨hreturns, hleaves⟩ := mutex.hold_returning error (calls o.dispatcher asked)
          show Turn.Same (Turn.sending (worker _ _ _ _).2.2 (worker _ _ _ _).1
            ((worker _ _ _ _).2.1 >>= _)) (Turn.sending (worker _ _ _ _).2.2 (worker _ _ _ _).1
            ((worker _ _ _ _).2.1 >>= _))
          rw [hasked, hasked']
          apply Turn.same_sending
          · rw [hresult, hresult']
            exact hreturns
          · rw [hmutex, hmutex']
            exact hleaves

/-- A loop of the relay does the same if it does not come to a poisoned lock. -/
theorem step_returning (calls : DispatcherCalls ε δ) (error : DispatchError)
    {event : LoopEvent SocketMessage} {phase : RemotePhase}
    (h : asked P C config o event phase ≠ none → mutex.poisoned = false) :
    step P C config (calls.returning error) o event phase mutex.unpoisoned =
      ((step P C config calls o event phase mutex).1,
        (step P C config calls o event phase mutex).2.1,
        (step P C config calls o event phase mutex).2.2.unpoisoned) := by
  cases phase with
  | stopped => rfl
  | connecting attempt =>
      cases event with
      | connected established =>
          cases established with
          | false => rfl
          | true =>
              unfold step
              cases sendHello P C config o.now o.messageId o.nonce o.sends <;> rfl
      | _ => rfl
  | greeting attempt hello =>
      cases event with
      | heard message =>
          obtain ⟨frame, digest⟩ := hello
          simp only [step]
          rcases awaitAck C frame digest o.now o.sends message with _ | _ | _
          · rfl
          · rfl
          · cases beginDispatch config <;> rfl
      | _ => rfl
  | serving attempt session =>
      cases event with
      | heard message =>
          apply Turn.Same.settle
          apply hear_same
          intro session' asked' hwork
          apply h
          simp [asked, hwork]
      | tick =>
          apply Turn.Same.settle
          exact Turn.same_sending (r := orFail o.now RemoteError.clock) rfl rfl
      | _ => rfl
  | waiting attempt delayMs => cases event <;> rfl

/-- What a loop has dispatched is what its worker has. -/
theorem step_dispatched (calls : DispatcherCalls ε δ) (mutex : Mutex δ)
    {event : LoopEvent SocketMessage} {phase : RemotePhase} {job : Asked}
    (hasked : asked P C config o event phase = some job) :
    (step P C config calls o event phase mutex).1.dispatched =
      (worker calls o.dispatcher job mutex).1 := by
  unfold asked at hasked
  split at hasked
  · rename_i message attempt session
    split at hasked
    · rename_i hwork
      obtain rfl := Option.some.inj hasked
      show ((hear P C config calls session o message mutex).settle attempt _).1.dispatched = _
      rw [Turn.settle_dispatched, hear, hwork]
      exact Turn.sending_dispatched _ _ _
    · cases hasked
  · cases hasked

/-- A poisoned lock is not taken. -/
theorem worker_of_poisoned {job : Asked} (o : ε) (h : mutex.poisoned = true) :
    worker calls o job mutex = (none, .error .dispatcherUnavailable, mutex) := by
  rw [worker, Mutex.withLock_of_poisoned h]

end RemoteClient

/-! ### The private link -/

namespace PrivateDevice

variable {config : PrivateDeviceClientConfig}

theorem worker_eq (calls : DispatcherCalls ε δ) (o : ε) (asked : Asked) (mutex : Mutex δ) :
    (worker calls o asked mutex).1.toOption =
        (mutex.withRecovered (calls o asked)).1.result ∧
      (worker calls o asked mutex).2 = (mutex.withRecovered (calls o asked)).2 := by
  unfold worker
  rcases (mutex.withRecovered (calls o asked)) with ⟨_ | _ | _, _⟩ <;> exact ⟨rfl, rfl⟩

theorem hear_same {replay : ReplayGuard} {received : Except Status (Option V1.RelayFrame)} :
    (hear P config calls replay o received mutex).Same
      (hear P config (calls.returning error) replay o received mutex.unpoisoned) := by
  unfold hear
  cases hwork : work P config replay o.now received with
  | error _ => exact ⟨rfl, rfl, rfl, rfl⟩
  | ok work =>
      cases work with
      | go replay => exact ⟨rfl, rfl, rfl, rfl⟩
      | dispatch replay' asked =>
          obtain ⟨hresult, hmutex⟩ := worker_eq calls o.dispatcher asked mutex
          obtain ⟨hresult', hmutex'⟩ := worker_eq (calls.returning error)
            o.dispatcher asked mutex.unpoisoned
          obtain ⟨hreturns, hleaves⟩ :=
            mutex.withRecovered_returning error (calls o.dispatcher asked)
          show Turn.Same (Turn.sending (worker _ _ _ _).2 _ ((worker _ _ _ _).1 >>= _))
            (Turn.sending (worker _ _ _ _).2 _ ((worker _ _ _ _).1 >>= _))
          apply Turn.same_sending
          · rw [hresult, hresult']
            exact hreturns
          · rw [hmutex, hmutex']
            exact hleaves

/-- A loop of the private link does the same in any case. -/
theorem step_returning (calls : DispatcherCalls ε δ) (error : DispatchError)
    (config : PrivateDeviceClientConfig) (o : LoopSurroundings ε)
    (event : LoopEvent (Except Status (Option V1.RelayFrame))) (phase : PrivatePhase)
    (mutex : Mutex δ) :
    step P C config (calls.returning error) o event phase mutex.unpoisoned =
      ((step P C config calls o event phase mutex).1,
        (step P C config calls o event phase mutex).2.1,
        (step P C config calls o event phase mutex).2.2.unpoisoned) := by
  cases phase with
  | stopped => cases event <;> rfl
  | connecting attempt =>
      cases event with
      | connected established =>
          cases established with
          | false => rfl
          | true =>
              unfold step
              cases sendHello config o.now o.messageId o.nonce o.sends <;> rfl
      | _ => rfl
  | greeting attempt hello =>
      cases event with
      | heard received =>
          simp only [step]
          cases beginDispatch P C config hello o.now received <;> rfl
      | _ => rfl
  | serving attempt replay =>
      cases event with
      | heard received => exact hear_same.settle attempt _
      | tick =>
          apply Turn.Same.settle
          exact Turn.same_sending (r := orFail o.now DeviceLinkError.clock) rfl rfl
      | _ => rfl
  | waiting attempt delayMs => cases event <;> rfl

end PrivateDevice

/-! ### All loops -/

structure AgentConfig where
  relay : ℕ → RemoteConfig
  link : ℕ → PrivateDeviceClientConfig

/-- The loops of a device, and the dispatcher that they share. -/
structure AgentState (δ : Type) where
  mutex : Mutex δ
  relays : ℕ → RemotePhase
  links : ℕ → PrivatePhase

/-- Something comes to one of the loops. -/
inductive AgentEvent (ε : Type)
  | relay (loop : ℕ) (event : LoopEvent SocketMessage) (o : LoopSurroundings ε)
  | link (loop : ℕ) (event : LoopEvent (Except Status (Option V1.RelayFrame)))
      (o : LoopSurroundings ε)

/-- A device before its first event. A private link with an invalid configuration
ends at once. -/
def AgentState.start (config : AgentConfig) (dispatcher : δ) : AgentState δ where
  mutex := { inner := dispatcher }
  relays _ := .connecting 0
  links loop := if (config.link loop).valid then .connecting 0 else .stopped

/-- The device, as a machine that takes events. -/
def agent (P : Primitives) (C : FrameCodec) (config : AgentConfig) (calls : DispatcherCalls ε δ) :
    Machine (AgentState δ) (AgentEvent ε) Deed where
  step s
    | .relay loop event o =>
        match RemoteClient.step P C (config.relay loop) calls o event (s.relays loop) s.mutex with
        | (deed, phase, mutex) =>
            (deed, { s with mutex, relays := Function.update s.relays loop phase })
    | .link loop event o =>
        match PrivateDevice.step P C (config.link loop) calls o event (s.links loop) s.mutex with
        | (deed, phase, mutex) =>
            (deed, { s with mutex, links := Function.update s.links loop phase })

/-- If a request comes in over the relay, the lock is not poisoned. -/
def FindsNoPoison (P : Primitives) (C : FrameCodec) (config : AgentConfig) (s : AgentState δ) :
    AgentEvent ε → Prop
  | .relay loop event o =>
      RemoteClient.asked P C (config.relay loop) o event (s.relays loop) ≠ none →
        s.mutex.poisoned = false
  | .link _ _ _ => True

/-- The two devices are alike but for the poison. -/
structure AgentState.Unpoisons (s s' : AgentState δ) : Prop where
  mutex : s'.mutex = s.mutex.unpoisoned
  relays : s'.relays = s.relays
  links : s'.links = s.links

theorem AgentState.Unpoisons.eq {s s' : AgentState δ} (h : s.Unpoisons s') :
    s' = { s with mutex := s.mutex.unpoisoned } := by
  cases s'
  obtain ⟨rfl, rfl, rfl⟩ := h
  rfl

/-- What one event comes to, with panics and with errors in their place. -/
theorem agent_alike (P : Primitives) (C : FrameCodec) (config : AgentConfig)
    (calls : DispatcherCalls ε δ) (error : DispatchError) :
    Machine.Alike (agent P C config calls) (agent P C config (calls.returning error))
      AgentState.Unpoisons (FindsNoPoison P C config) := by
  refine ⟨?_, ?_, ?_⟩
  · rintro s s' (⟨loop, event, o⟩ | ⟨loop, event, o⟩) hs hfinds
    · rw [hs.eq]
      show _ = (RemoteClient.step P C _ (calls.returning error) o event (s.relays loop)
        s.mutex.unpoisoned).1
      rw [RemoteClient.step_returning calls error hfinds]
      rfl
    · rw [hs.eq]
      show _ = (PrivateDevice.step P C _ (calls.returning error) o event (s.links loop)
        s.mutex.unpoisoned).1
      rw [PrivateDevice.step_returning]
      rfl
  · rintro s s' (⟨loop, event, o⟩ | ⟨loop, event, o⟩) hs hfinds
    · have hstep := RemoteClient.step_returning calls error hfinds
      rw [hs.eq]
      constructor
      · exact congrArg (fun r => r.2.2) hstep
      · exact congrArg (fun r => Function.update s.relays loop r.2.1) hstep
      · rfl
    · have hstep : PrivateDevice.step P C _ _ o event (s.links loop) s.mutex.unpoisoned = _ :=
        PrivateDevice.step_returning calls error (config.link loop) o event (s.links loop) s.mutex
      rw [hs.eq]
      constructor
      · exact congrArg (fun r => r.2.2) hstep
      · rfl
      · exact congrArg (fun r => Function.update s.links loop r.2.1) hstep
  · rintro s s' (⟨loop, event, o⟩ | ⟨loop, event, o⟩) hs hfinds hsame
    · -- the request is lost in one device, and dispatched in the other
      rw [FindsNoPoison, Classical.not_imp, Bool.not_eq_false] at hfinds
      obtain ⟨hasked, hpoisoned⟩ := hfinds
      obtain ⟨job, hjob⟩ := Option.ne_none_iff_exists'.mp hasked
      have hlost := RemoteClient.step_dispatched calls s.mutex hjob
      rw [RemoteClient.worker_of_poisoned _ hpoisoned] at hlost
      have hdone := RemoteClient.step_dispatched (calls.returning error) s.mutex.unpoisoned hjob
      rw [(RemoteClient.worker_of_not_poisoned _ o.dispatcher job
        s.mutex.unpoisoned_poisoned).1] at hdone
      rw [hs.eq] at hsame
      have hdispatched : none = some job := calc
        none = _ := hlost.symm
        _ = _ := congrArg Deed.dispatched hsame
        _ = some job := hdone
      cases hdispatched
    · exact hfinds trivial

/-- A device dispatches and sends what it would if the calls that panic had returned
errors, exactly if no request comes in over the relay while the lock is poisoned. -/
theorem panics_harmless_iff (P : Primitives) (C : FrameCodec) (config : AgentConfig)
    (calls : DispatcherCalls ε δ) (error : DispatchError) (dispatcher : δ)
    (events : List (AgentEvent ε)) :
    (agent P C config calls).outputs (.start config dispatcher) events =
        (agent P C config (calls.returning error)).outputs (.start config dispatcher) events ↔
      (agent P C config calls).Throughout (FindsNoPoison P C config) (.start config dispatcher)
        events :=
  (agent_alike P C config calls error).outputs_eq_iff ⟨rfl, rfl, rfl⟩ events

/-! ### A request that is lost -/

namespace Sample

def noListing : V1.ActionResult :=
  { requestId := "request", exitCode := 0, status := "ok", stdoutDigest := [], stderrDigest := []
    completedAt := none, output := [], contentType := "application/json", truncated := false }

/-- A dispatcher that gives the same answer to all requests, or panics. -/
def panicking : DispatcherCalls Bool Unit :=
  fun panics _ s => if panics then (.panicked, s) else (.returned (.ok noListing), s)

/-- A frame from the relay, which expires after one second. -/
def fromRelay (messageId : String) (payload : V1.Payload) : V1.RelayFrame :=
  { wireVersion := 1, messageId, deviceId := "device", expiresAt := some ⟨1, 0⟩
    nonce := List.replicate 16 1, payload := some payload }

/-- The acknowledgement of a hello whose identifier is made of zeros. -/
def helloAck : V1.RelayFrame :=
  fromRelay (hexEncode random.toList) <| .ack
    { messageId := hexEncode random.toList, status := "accepted"
      payloadDigest := (reference.sha256 []).toList }

/-- The relay sends the acknowledgement or a listing. -/
def agentCodec : FrameCodec where
  encode _ := []
  decode bytes :=
    if bytes.isEmpty then some helloAck else some (fromRelay "action" (.actionRequest listing))

def agentConfig : AgentConfig where
  relay _ :=
    { deviceId := "device", agentVersion := "1", secure := true, heartbeatIntervalMs := 15000
      minDelayMs := 250, maxDelayMs := 30000 }
  link _ :=
    { endpoint := "https://link", serverName := "link", deviceId := "device", caPem := [1]
      deviceCertPem := [1], deviceKeyPem := [1], agentVersion := "1"
      heartbeatIntervalMs := 15000, replayCapacity := 4096 }

/-- The device connects to the relay and is asked for a listing. -/
def session (panics : Bool) : List (AgentEvent Bool) :=
  let around : LoopSurroundings Bool :=
    { now := some 10, later := some 10, messageId := random, nonce := random, sends := true
      cancelled := false, dispatcher := panics }
  [.relay 0 (.connected true) around, .relay 0 (.heard (.binary [])) around,
    .relay 0 (.heard (.binary [1])) around]

/-- The first request panics. The device connects again and is asked again. -/
def sessions : List (AgentEvent Bool) :=
  session true ++ .relay 0 .elapsed
    { now := some 10, later := some 10, messageId := random, nonce := random, sends := true
      cancelled := false, dispatcher := false } :: session false

end Sample

open Sample in
/-- The second request is not dispatched, and the relay has no answer to it. If the
first call had returned an error, the second request would have been answered. -/
theorem request_lost :
    ((agent reference agentCodec agentConfig panicking).outputs (.start agentConfig ())
        sessions).getLast? = some {} ∧
      ((agent reference agentCodec agentConfig (panicking.returning .clock)).outputs
        (.start agentConfig ()) sessions).getLast?.map (fun deed =>
          (deed.dispatched, deed.sent.map (·.payload))) =
        some (some (.request listing), [some (.actionResult noListing)]) ∧
      (agent reference agentCodec agentConfig panicking).outputs (.start agentConfig ()) sessions ≠
        (agent reference agentCodec agentConfig (panicking.returning .clock)).outputs
          (.start agentConfig ()) sessions := by
  have hlost : ((agent reference agentCodec agentConfig panicking).outputs (.start agentConfig ())
      sessions).getLast? = some {} := by decide +kernel
  have hanswered : ((agent reference agentCodec agentConfig (panicking.returning .clock)).outputs
      (.start agentConfig ()) sessions).getLast?.map (fun deed =>
        (deed.dispatched, deed.sent.map (·.payload))) =
      some (some (.request listing), [some (.actionResult noListing)]) := by decide +kernel
  refine ⟨hlost, hanswered, fun hsame => ?_⟩
  rw [← hsame, hlost] at hanswered
  cases hanswered

end VorCommander
