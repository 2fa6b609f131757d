import OpenSimp.Server.Receive
import OpenSimp.Lib.Transition

/-!
# The server as a transition system

An event is one iteration of `connectClients` or one call of `receive` from `manage`, each taken
as one atomic step. Events that fail are not steps: a run goes on only while every event returns.
-/

namespace OpenSimp

open ServerNetwork

inductive Event where
  /-- `connectClients` accepts a connection on the newly allocated socket `newClient`. -/
  | accept (newClient : Sock) (w : World)
  /-- `manage` calls `receive(client_array[iterator], iterator)`. -/
  | receive (iterator : ℕ) (w : World)

/-- What an event did: its effects, and what the two sanitizer flags recorded. -/
structure Obs where
  acts : List Act
  useAfterFree : Bool
  staleIndex : Bool

/-- The server between two events. -/
structure Config where
  server : Server
  live : Sock → Bool
  owners : VectorName → List ℕ
  accepted : ℕ

namespace Config

def size (c : Config) : ℕ := c.server.clientArray.length

/-- The server before its first connection. -/
def init (userdata : Bytes) : Config where
  server :=
    { clientArray := []
      clientidArray := []
      clientOpArray := []
      clientAuthenticatedArray := []
      clientMessageInterval := []
      keys := fun _ => none
      userdata := userdata }
  live := fun _ => false
  owners := fun _ => []
  accepted := 0

/-- The run-time state in which an event starts. -/
def machine (c : Config) : Machine where
  server := c.server
  live := c.live
  owners := c.owners
  accepted := c.accepted
  gone := none
  useAfterFree := false
  staleIndex := false
  acts := []

end Config

namespace Event

/-- The allocator returns no pointer twice before it is deleted, and `manage` polls rows of the
table. -/
def Enabled (c : Config) : Event → Prop
  | .accept newClient _ => c.live newClient = false
  | .receive iterator _ => iterator < c.size

def code (L : Library) : Event → M Unit
  | .accept newClient w => connectClients L w newClient
  | .receive iterator w => do
    let client ← clientArray.index iterator
    ServerNetwork.receive L w client iterator

end Event

namespace Machine

def obs (m : Machine) : Obs := ⟨m.acts, m.useAfterFree, m.staleIndex⟩

/-- The server after an event. -/
def config (m : Machine) : Config := ⟨m.server, m.live, m.owners, m.accepted⟩

end Machine

/-- The server. -/
def server (L : Library) : System Config Event Obs where
  step c e o c' := e.Enabled c ∧
    ∃ m, (e.code L).run c.machine = .ok ((), m) ∧ o = m.obs ∧ c' = m.config

/-! ### Playing events -/

instance (c : Config) (e : Event) : Decidable (e.Enabled c) := by
  cases e <;> unfold Event.Enabled <;> infer_instance

/-- Handles one event, if it is enabled and returns. -/
def fire (L : Library) (c : Config) (e : Event) : Option (System.Step Config Event Obs) :=
  if e.Enabled c then
    match (e.code L).run c.machine with
    | .ok ((), m) => some ⟨c, e, m.obs, m.config⟩
    | .error _ => none
  else none

/-- Handles events one after the other. -/
def play (L : Library) :
    Config → List Event → Option (List (System.Step Config Event Obs) × Config) :=
  System.play (fire L)

lemma fire_eq_some {L : Library} {c : Config} {e : Event} {st : System.Step Config Event Obs}
    (h : fire L c e = some st) :
    st.pre = c ∧ st.event = e ∧ (server L).step c e st.obs st.post := by
  rw [fire] at h
  split_ifs at h with henabled
  cases hrun : (e.code L).run c.machine with
  | error fault => rw [hrun] at h; cases h
  | ok m =>
    rw [hrun] at h
    cases h
    exact ⟨rfl, rfl, henabled, m.2, hrun, rfl, rfl⟩

/-- Playing events is a run. -/
lemma run_of_play {L : Library} {es : List Event} {c c' : Config}
    {steps : List (System.Step Config Event Obs)} (h : play L c es = some (steps, c')) :
    (server L).Run c steps c' :=
  System.run_of_play (fun _ _ _ hfire => fire_eq_some hfire) h

lemma map_event_of_play {L : Library} {es : List Event} {c c' : Config}
    {steps : List (System.Step Config Event Obs)} (h : play L c es = some (steps, c')) :
    steps.map (·.event) = es :=
  System.map_event_of_play (fun _ _ _ hfire => (fire_eq_some hfire).2.1) h

end OpenSimp
