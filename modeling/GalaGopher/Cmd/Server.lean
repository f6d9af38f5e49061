import GalaGopher.Cmd.Request
import GalaGopher.Data.Lifecycle

namespace GalaGopher.Cmd

open Data Text

/-! The loop of the command server, and what it does with its buffer and with the
descriptors of its clients. -/

/-- How far `CmdServer` comes before its loop. -/
inductive Startup where
  | runDirFailed
  | createFailed
  | mallocFailed
  | ready
deriving DecidableEq

/-- How one `accept` ends. Nothing is read where the read fails or the client
has closed. -/
inductive Accepted where
  | refused
  | client (client_fd : Nat) (read : Bytes) (sent : Bool)

inductive Action where
  | malloc
  | memset
  | accept
  | accepted (client_fd : Nat)
  | memcpy (text : Bytes)
  | write (client_fd : Nat) (text : Bytes)
  | free
  | closeServer

def Action.use? : Action → Option (Use Nat)
  | malloc => some .allocate
  | memset => some .touch
  | accept => some .ask
  | accepted client_fd => some (.opens client_fd)
  | memcpy _ => some .touch
  | write _ _ => some .touch
  | free => some .free
  | closeServer => none

/-- The `while` loop, which waits for the next client where none has come yet. -/
def serve (galaConfPath : Bytes) : GopherCmdRequest → List Accepted → List Action
  | _, [] => [.memset, .accept]
  | rcvRequest, .refused :: rest => .memset :: .accept :: .free :: serve galaConfPath rcvRequest rest
  | rcvRequest, .client client_fd read sent :: rest =>
      let text := resultText galaConfPath rcvRequest read
      .memset :: .accept :: .accepted client_fd :: .memcpy text :: .write client_fd text :: .free ::
        if sent then serve galaConfPath (received rcvRequest read) rest else [.closeServer]

def cmdServer (galaConfPath : Bytes) (rcvRequest : GopherCmdRequest) (clients : List Accepted) : Startup → List Action
  | .runDirFailed => []
  | .createFailed => []
  | .mallocFailed => [.closeServer]
  | .ready => .malloc :: serve galaConfPath rcvRequest clients

def Survives (actions : List Action) : Prop := Disciplined {} (actions.filterMap Action.use?)

/-- The first answer cannot be sent, and the server returns. -/
def FirstFails (clients : List Accepted) : Prop :=
  ∃ client_fd read rest, clients = .client client_fd read false :: rest

variable {galaConfPath : Bytes} {rcvRequest : GopherCmdRequest} {clients : List Accepted} {startup : Startup}

/-- Every round begins with the buffer, also those after the first, which freed it. -/
theorem serve_uses (galaConfPath : Bytes) (rcvRequest : GopherCmdRequest) (clients : List Accepted) :
    ∃ rest, (serve galaConfPath rcvRequest clients).filterMap Action.use? = .touch :: rest := by
  cases clients with
  | nil => exact ⟨_, rfl⟩
  | cons client rest =>
      cases client with
      | refused => exact ⟨_, rfl⟩
      | client client_fd read sent => exact ⟨_, rfl⟩

/-- The loop does not go on after a first round. -/
theorem serve_freed {resources : Resources Nat} (freed : resources.allocated = false) :
    ¬Disciplined resources ((serve galaConfPath rcvRequest clients).filterMap Action.use?) := by
  obtain ⟨rest, uses⟩ := serve_uses galaConfPath rcvRequest clients
  rw [uses]
  intro disciplined
  exact absurd (freed.symm.trans disciplined.1) Bool.false_ne_true

theorem serve_refused {resources : Resources Nat} {rest : List Accepted} :
    ¬Disciplined resources ((serve galaConfPath rcvRequest (.refused :: rest)).filterMap Action.use?) := by
  intro disciplined
  exact serve_freed rfl disciplined.2.2.2

theorem serve_sent {resources : Resources Nat} {client_fd : Nat} {read : Bytes} {rest : List Accepted} :
    ¬Disciplined resources
      ((serve galaConfPath rcvRequest (.client client_fd read true :: rest)).filterMap Action.use?) := by
  intro disciplined
  exact serve_freed rfl disciplined.2.2.2.2.2.2

theorem survives_ready :
    Survives (cmdServer galaConfPath rcvRequest clients .ready) ↔ clients = [] ∨ FirstFails clients := by
  cases clients with
  | nil => exact ⟨fun _ => .inl rfl, fun _ => ⟨rfl, rfl, rfl, trivial⟩⟩
  | cons client rest =>
      cases client with
      | refused =>
          refine ⟨fun survives => absurd survives.2 serve_refused, fun first => ?_⟩
          rcases first with none | ⟨_, _, _, served⟩
          · cases none
          · cases served
      | client client_fd read sent =>
          cases sent with
          | false => exact ⟨fun _ => .inr ⟨client_fd, read, rest, rfl⟩,
              fun _ => ⟨rfl, rfl, rfl, List.not_mem_nil, rfl, rfl, rfl, trivial⟩⟩
          | true =>
              refine ⟨fun survives => absurd survives.2 serve_sent, fun first => ?_⟩
              rcases first with none | ⟨_, _, _, served⟩
              · cases none
              · cases served

theorem cmdServer_survives_iff (galaConfPath : Bytes) (rcvRequest : GopherCmdRequest) (clients : List Accepted)
    (startup : Startup) :
    Survives (cmdServer galaConfPath rcvRequest clients startup) ↔
      startup ≠ .ready ∨ clients = [] ∨ FirstFails clients := by
  cases startup with
  | ready =>
      have started : ¬Startup.ready ≠ .ready := fun failed => failed rfl
      rw [survives_ready, or_iff_right started]
  | runDirFailed => exact ⟨fun _ => .inl Startup.noConfusion, fun _ => trivial⟩
  | createFailed => exact ⟨fun _ => .inl Startup.noConfusion, fun _ => trivial⟩
  | mallocFailed => exact ⟨fun _ => .inl Startup.noConfusion, fun _ => trivial⟩

/-- One client that is answered, and the buffer is gone for the next. -/
theorem second_client_uses_freed :
    ¬Survives (cmdServer (ascii "/opt") (fun _ => 0) [.client 5 [0] true] .ready) := by
  intro survives
  exact serve_sent survives.2

end GalaGopher.Cmd
