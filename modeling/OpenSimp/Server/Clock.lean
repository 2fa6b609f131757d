import OpenSimp.Room.Basic
import OpenSimp.Server.Manage

/-!
# The server and its clients in time

`Clocked` adds a clock in milliseconds to `manage`, and what the clients have sent: a message waits
in its sender's inbox until a poll of the sender reads it, whole and alone. Clients send whenever
they like. `manage` sleeps for at least 100 ms between two passes.
-/

namespace OpenSimp

open System

/-- A message of a client, which is read whole. -/
structure Message where
  data : Bytes
  sentAt : ℕ
  /-- When the client sent its message before. -/
  previous : Option ℕ
  /-- Whether the client was `Done` when it sent the message. -/
  done : Bool
  data_ne_nil : data ≠ []
  data_length_le : data.length ≤ maxRawData

/-- The message was sent 20 ms or less after the one before. -/
def Message.Quick (m : Message) : Prop := ∃ t, m.previous = some t ∧ m.sentAt ≤ t + 20

structure Clocked where
  manager : Manager
  /-- When the last event happened. -/
  now : ℕ
  /-- When `manage` is done with what it does. -/
  free : ℕ
  /-- The messages that each connection has sent and the server has not read, oldest first. -/
  inbox : ℕ → List Message
  /-- When each connection has sent messages, oldest first. -/
  sends : ℕ → List ℕ

namespace Clocked

def init (userdata : Bytes) : Clocked where
  manager := Manager.init userdata
  now := 0
  free := 0
  inbox := fun _ => []
  sends := fun _ => []

inductive Event where
  /-- The client of row `k` sends `data` at the time `t`. -/
  | send (k t : ℕ) (data : Bytes)
  | accept (newClient : Sock) (w : World)
  | poll (w : World)
  /-- `manage` sleeps until the time `t`. -/
  | sleep (t : ℕ)

/-- The message that the connection of `r` sends. -/
def message (s : Clocked) (r : Row) (t : ℕ) {data : Bytes} (hne : data ≠ [])
    (hlen : data.length ≤ maxRawData) : Message where
  data := data
  sentAt := t
  previous := (s.sends r.conn).getLast?
  done := decide (r.status = .done)
  data_ne_nil := hne
  data_length_le := hlen

/-- The message `m` is sent on the connection `n`. -/
def deliver (s : Clocked) (n : ℕ) (m : Message) : Clocked where
  manager := s.manager
  now := m.sentAt
  free := s.free
  inbox := fun n' => if n' = n then s.inbox n ++ [m] else s.inbox n'
  sends := fun n' => if n' = n then s.sends n ++ [m.sentAt] else s.sends n'

/-- What a poll of the connection `n` reads: the oldest message, or nothing. -/
def Reads (s : Clocked) (n : ℕ) (w : World) : Prop :=
  match s.inbox n with
  | [] => w.data = []
  | m :: _ => w.status ≠ .disconnected ∧ w.data = m.data

instance (s : Clocked) (n : ℕ) (w : World) : Decidable (s.Reads n w) := by
  unfold Reads
  cases s.inbox n <;> infer_instance

/-- After a poll of the connection `n`. -/
def polled (s : Clocked) (n : ℕ) (w : World) (manager : Manager) : Clocked where
  manager := manager
  now := w.now
  free := w.later
  inbox := fun n' => if n' = n then (s.inbox n).tail else s.inbox n'
  sends := s.sends

inductive Step (L : Library) (s : Clocked) : Event → Obs → Clocked → Prop where
  | send {k t : ℕ} {data : Bytes} {r : Row} (hr : s.manager.config.row? k = some r)
      (hnow : s.now ≤ t) (hne : data ≠ []) (hlen : data.length ≤ maxRawData) :
      Step L s (.send k t data) ⟨[], false, false⟩
        (s.deliver r.conn (s.message r t hne hlen))
  | accept {p : Sock} {w : World} {o : Obs} {manager : Manager} (hnow : s.now ≤ w.now)
      (h : Manager.Step L s.manager (.accept p w) o manager) :
      Step L s (.accept p w) o { s with manager := manager, now := w.now }
  | poll {w : World} {o : Obs} {manager : Manager} {r : Row}
      (hr : s.manager.config.row? s.manager.iterator = some r) (hnow : s.now ≤ w.now)
      (hfree : s.free ≤ w.now) (hlater : w.now ≤ w.later) (hread : s.Reads r.conn w)
      (h : Manager.Step L s.manager (.poll w) o manager) :
      Step L s (.poll w) o (s.polled r.conn w manager)
  | sleep {t : ℕ} {o : Obs} {manager : Manager} (hnow : s.now ≤ t) (hfree : s.free + 100 ≤ t)
      (h : Manager.Step L s.manager .sleep o manager) :
      Step L s (.sleep t) o { s with manager := manager, now := t, free := t }

end Clocked

def clocked (L : Library) : System Clocked Clocked.Event Obs := ⟨Clocked.Step L⟩

/-- Without its clock, the system is `manage`. -/
lemma clocked_reachable {L : Library} {s₀ s : Clocked} (h : (clocked L).Reachable s₀ s) :
    (manage L).Reachable s₀.manager s.manager := by
  refine h.invariant (fun s => (manage L).Reachable s₀.manager s.manager) .refl ?_
  intro s e o s' hs hstep
  cases hstep with
  | send => exact hs
  | accept _ h | sleep _ _ h => exact hs.snoc h
  | poll _ _ _ _ _ h => exact hs.snoc h

/-! ### Playing events -/

/-- Takes one step, if it is enabled and returns. -/
def Clocked.fire (L : Library) (s : Clocked) :
    Clocked.Event → Option (System.Step Clocked Clocked.Event Obs)
  | .send k t data => do
    let r ← s.manager.config.row? k
    if h : s.now ≤ t ∧ data ≠ [] ∧ data.length ≤ maxRawData then
      some ⟨s, .send k t data, ⟨[], false, false⟩, s.deliver r.conn (s.message r t h.2.1 h.2.2)⟩
    else none
  | .accept p w =>
    if s.now ≤ w.now then
      (Manager.fire L s.manager (.accept p w)).map fun st =>
        ⟨s, .accept p w, st.obs, { s with manager := st.post, now := w.now }⟩
    else none
  | .poll w => do
    let r ← s.manager.config.row? s.manager.iterator
    if (s.now ≤ w.now ∧ s.free ≤ w.now) ∧ w.now ≤ w.later ∧ s.Reads r.conn w then
      (Manager.fire L s.manager (.poll w)).map fun st =>
        ⟨s, .poll w, st.obs, s.polled r.conn w st.post⟩
    else none
  | .sleep t =>
    if s.now ≤ t ∧ s.free + 100 ≤ t then
      (Manager.fire L s.manager .sleep).map fun st =>
        ⟨s, .sleep t, st.obs, { s with manager := st.post, now := t, free := t }⟩
    else none

lemma Clocked.fire_eq_some {L : Library} {s : Clocked} {e : Clocked.Event}
    {st : System.Step Clocked Clocked.Event Obs} (h : Clocked.fire L s e = some st) :
    st.pre = s ∧ st.event = e ∧ (clocked L).step s e st.obs st.post := by
  cases e with
  | send k t data =>
    obtain ⟨r, hr, h⟩ := Option.bind_eq_some_iff.mp h
    split_ifs at h with hsend
    cases h
    exact ⟨rfl, rfl, .send hr hsend.1 hsend.2.1 hsend.2.2⟩
  | accept p w =>
    rw [Clocked.fire] at h
    split_ifs at h with hnow
    obtain ⟨st', hfire, rfl⟩ := Option.map_eq_some_iff.mp h
    exact ⟨rfl, rfl, .accept hnow (Manager.fire_eq_some hfire).2.2⟩
  | poll w =>
    obtain ⟨r, hr, h⟩ := Option.bind_eq_some_iff.mp h
    split_ifs at h with hpoll
    obtain ⟨⟨hnow, hfree⟩, hlater, hread⟩ := hpoll
    obtain ⟨st', hfire, rfl⟩ := Option.map_eq_some_iff.mp h
    exact ⟨rfl, rfl, .poll hr hnow hfree hlater hread (Manager.fire_eq_some hfire).2.2⟩
  | sleep t =>
    rw [Clocked.fire] at h
    split_ifs at h with hsleep
    obtain ⟨st', hfire, rfl⟩ := Option.map_eq_some_iff.mp h
    exact ⟨rfl, rfl, .sleep hsleep.1 hsleep.2 (Manager.fire_eq_some hfire).2.2⟩

end OpenSimp
