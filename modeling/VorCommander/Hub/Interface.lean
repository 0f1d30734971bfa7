import VorCommander.Auth.Store
import VorCommander.Hub.Frames
import VorCommander.Steps.Pool

/-!
The operations a hub performs.

Both hubs keep a table of connected devices and a table of requests that have
not been answered. A caller takes a slot in the second table, puts a frame into
the channel of the device and waits at its slot. The tasks of a connection take
frames out of the channel and hand in results. Each of these is one operation.

Slots and channels have numbers here, and a frame in a channel carries the slot
of the caller that sent it, so that it can be said which request a result
answers. A hub does not look at these numbers.
-/

namespace VorCommander

open Crypto Steps Steps.Program Text

/-- What `rand::random` draws: an identifier or a nonce. -/
abbrev Random128 := Vector UInt8 16

/-- A device and a request identifier. -/
abbrev RequestKey := String × String

/-- The codes of gRPC that the hub gives, or one that it passes on. -/
inductive StatusCode
  | unauthenticated
  | internal
  | invalidArgument
  | permissionDenied
  | failedPrecondition
  | unimplemented
  | alreadyExists
  | other (code : ℕ)
  deriving DecidableEq

structure Status where
  code : StatusCode
  message : String
  deriving DecidableEq

/-- What a channel carries. The slot is that of the caller, if a caller has
sent it. -/
structure Outgoing where
  content : Except Status V1.RelayFrame
  slot : Option ℕ
  deriving DecidableEq

/-- `DeviceSession`, with the number of the channel that `sender` belongs to. -/
structure DeviceSession where
  sessionId : Random128
  sender : ℕ
  deriving DecidableEq

/-! ### Replies -/

inductive Reservation
  | reserved (slot : ℕ)
  | duplicate
  | tooMany
  deriving DecidableEq

/-- A result as a caller receives it: it came in on a channel, and the device
gave it as its answer to the frame of a slot. -/
structure Answer where
  result : V1.ActionResult
  channel : ℕ
  answers : Option ℕ
  deriving DecidableEq

/-- Whether a result found a caller, and the slot of the frame that the device
answers by it. The hub learns the first only. -/
structure Completion where
  received : Bool
  answers : Option ℕ
  deriving DecidableEq

inductive Sending
  | sent
  | closed
  | elapsed
  deriving DecidableEq

inductive Awaited
  | answered (answer : Answer)
  | closed
  | elapsed
  deriving DecidableEq

inductive SocketMessage
  | gone
  | failed
  | binary (bytes : List UInt8)
  | close
  | ping
  | pong
  | other
  deriving DecidableEq

/-- What `tokio::select!` goes on with. -/
inductive SocketEvent
  | outgoing (item : Option Outgoing)
  | incoming (message : SocketMessage)
  deriving DecidableEq

/-- A replay guard refuses, or its lock is poisoned. -/
inductive GuardError
  | poisoned
  | refused (error : FrameError)
  deriving DecidableEq

/-! ### Operations -/

/-- The last three are not performed by a hub: time passes, another process
works with the store of grants, and the future of a caller is dropped. -/
inductive HubOp
  | clock
  | random
  | validate (token requiredScope : String) (nowUnixMs : ℕ)
  | openChannel
  | closeChannel (channel : ℕ)
  | register (deviceId : String) (sender : ℕ) (sessionId : Random128)
  | unregister (deviceId : String) (sessionId : Random128)
  | lookup (deviceId : String)
  | reserve (key : RequestKey) (limit : Option ℕ)
  | remove (key : RequestKey) (slot : ℕ)
  | complete (channel : ℕ) (deviceId : String) (result : V1.ActionResult)
  | send (channel : ℕ) (item : Outgoing) (bounded : Bool)
  | await (slot : ℕ)
  | accept (frame : V1.RelayFrame) (nowUnixMs : ℕ)
  | select (channel : ℕ) (bound : Bool)
  | receive (channel : ℕ)
  | take (channel : ℕ)
  | transmit (channel : ℕ) (item : Outgoing)
  | control (channel : ℕ)
  | elapse (nowUnixMs : ℕ)
  | store (call : GrantStoreCall) (draws : StoreDraws)
  | drop (slot : ℕ)

/-- What each operation replies. A transmission replies whether it has
succeeded. -/
@[reducible] def HubOp.Reply : HubOp → Type
  | .clock => Except Unit ℕ
  | .random => Random128
  | .validate _ _ _ => Except AuthError GrantRecord
  | .openChannel => ℕ
  | .closeChannel _ => Unit
  | .register _ _ _ => Unit
  | .unregister _ _ => Unit
  | .lookup _ => Option DeviceSession
  | .reserve _ _ => Reservation
  | .remove _ _ => Unit
  | .complete _ _ _ => Completion
  | .send _ _ _ => Sending
  | .await _ => Awaited
  | .accept _ _ => Except GuardError Unit
  | .select _ _ => SocketEvent
  | .receive _ => Except Status (Option V1.RelayFrame)
  | .take _ => Outgoing
  | .transmit _ _ => Bool
  | .control _ => Bool
  | .elapse _ => Unit
  | .store _ _ => Unit
  | .drop _ => Unit

/-- The interface of a hub. -/
abbrev Hub : Interface := ⟨HubOp, HubOp.Reply⟩

/-- A program of a hub that can end early, with an error. -/
abbrev HubM (ε α : Type) := ExceptT ε (Program Hub) α

namespace Hub

/-- One operation and its reply. -/
def call {ε : Type} (op : HubOp) : HubM ε op.Reply := ExceptT.lift (perform (I := Hub) op)

/-- One operation whose reply can be an error, which is given another name. -/
def ask {ε ε' α : Type} (error : ε' → ε) (p : Program Hub (Except ε' α)) : HubM ε α :=
  ExceptT.adapt error (attempt p)

end Hub

section Rules

variable {A : History Hub → Event Hub → Prop} {G : History Hub → Hub.Op → Prop}
  {h : History Hub} {ε ε' α : Type}

/-- The rule of one operation. -/
theorem safe_hubCall (op : HubOp) {Q : History Hub → Except ε op.Reply → Prop} (hop : G h op)
    (hreply : ∀ reply : op.Reply, A h ⟨op, reply⟩ → Q (⟨op, reply⟩ :: h) (.ok reply)) :
    Safe A G Q (Hub.call op).run h :=
  (safe_exceptT_lift _).mpr ((safe_perform (I := Hub) op).mpr ⟨hop, hreply⟩)

/-- The rule of one operation whose reply can be an error. -/
theorem safe_hubAsk (op : HubOp) {error : ε' → ε} {f : op.Reply → Except ε' α}
    {Q : History Hub → Except ε α → Prop} (hop : G h op)
    (hreply : ∀ reply : op.Reply, A h ⟨op, reply⟩ →
      Q (⟨op, reply⟩ :: h) ((f reply).mapError error)) :
    Safe A G Q (Hub.ask error (.step (I := Hub) op fun reply => .done (f reply))).run h := by
  rw [Hub.ask, safe_exceptT_adapt, safe_attempt]
  exact (safe_call (I := Hub) op f).mpr ⟨hop, hreply⟩

/-- The rule of one operation and what follows it. -/
theorem safe_hubPerform (op : HubOp) {β : Type} {f : op.Reply → Program Hub β}
    {Q : History Hub → β → Prop} (hop : G h op)
    (hreply : ∀ reply : op.Reply, A h ⟨op, reply⟩ → Safe A G Q (f reply) (⟨op, reply⟩ :: h)) :
    Safe A G Q (perform (I := Hub) op >>= f) h :=
  (safe_bind _ _).mpr ((safe_perform (I := Hub) op).mpr ⟨hop, hreply⟩)

end Rules

end VorCommander
