import OpenSimp.Server.System

/-!
# The loop of `manage`

`manage` polls the rows of the table one after the other, sleeps and starts again. Connections are
accepted in another thread, so between any two polls. `Manager` is the server with the position of
the inner loop.
-/

namespace OpenSimp

open System

/-- The server and the variable of `manage`'s inner loop. -/
structure Manager where
  config : Config
  iterator : ℕ

namespace Manager

inductive Event where
  /-- `connectClients` accepts a connection. -/
  | accept (newClient : Sock) (w : World)
  /-- One iteration of the inner loop. -/
  | poll (w : World)
  /-- The inner loop is over, and `manage` sleeps. -/
  | sleep

inductive Step (L : Library) (s : Manager) : Event → Obs → Manager → Prop where
  | accept {p : Sock} {w : World} {o : Obs} {c : Config}
      (h : (server L).step s.config (.accept p w) o c) : Step L s (.accept p w) o ⟨c, s.iterator⟩
  | poll {w : World} {o : Obs} {c : Config}
      (h : (server L).step s.config (.receive s.iterator w) o c) :
      Step L s (.poll w) o ⟨c, s.iterator + 1⟩
  | sleep (h : s.config.size ≤ s.iterator) : Step L s .sleep ⟨[], false, false⟩ ⟨s.config, 0⟩

def init (userdata : Bytes) : Manager := ⟨Config.init userdata, 0⟩

end Manager

def manage (L : Library) : System Manager Manager.Event Obs := ⟨Manager.Step L⟩

/-- Without its loop, `manage` is the server. -/
lemma manage_reachable {L : Library} {c : Config} {s₀ s : Manager}
    (h : (manage L).Reachable s₀ s) (h₀ : (server L).Reachable c s₀.config) :
    (server L).Reachable c s.config := by
  refine h.invariant (fun s => (server L).Reachable c s.config) h₀ ?_
  intro s e o s' hs hstep
  cases hstep with
  | accept h | poll h => exact hs.snoc h
  | sleep => exact hs

/-! ### Playing events -/

/-- Takes one step of `manage`, if it is enabled and returns. -/
def Manager.fire (L : Library) (s : Manager) :
    Manager.Event → Option (System.Step Manager Manager.Event Obs)
  | .accept p w => (OpenSimp.fire L s.config (.accept p w)).map fun st =>
      ⟨s, .accept p w, st.obs, ⟨st.post, s.iterator⟩⟩
  | .poll w => (OpenSimp.fire L s.config (.receive s.iterator w)).map fun st =>
      ⟨s, .poll w, st.obs, ⟨st.post, s.iterator + 1⟩⟩
  | .sleep =>
    if s.config.size ≤ s.iterator then some ⟨s, .sleep, ⟨[], false, false⟩, ⟨s.config, 0⟩⟩
    else none

lemma Manager.fire_eq_some {L : Library} {s : Manager} {e : Manager.Event}
    {st : System.Step Manager Manager.Event Obs} (h : Manager.fire L s e = some st) :
    st.pre = s ∧ st.event = e ∧ (manage L).step s e st.obs st.post := by
  cases e with
  | accept p w =>
    obtain ⟨st', hfire, rfl⟩ := Option.map_eq_some_iff.mp h
    obtain ⟨-, -, hstep⟩ := OpenSimp.fire_eq_some hfire
    exact ⟨rfl, rfl, .accept hstep⟩
  | poll w =>
    obtain ⟨st', hfire, rfl⟩ := Option.map_eq_some_iff.mp h
    obtain ⟨-, -, hstep⟩ := OpenSimp.fire_eq_some hfire
    exact ⟨rfl, rfl, .poll hstep⟩
  | sleep =>
    rw [Manager.fire] at h
    split_ifs at h with hover
    cases h
    exact ⟨rfl, rfl, .sleep hover⟩

end OpenSimp
