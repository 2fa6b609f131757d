import OpenSimp.Room.Refinement

/-!
# The room as a transition system

`room` steps on the same events as `server`. Since `receive` computes `Room.serve`, every run of
the server from the layout of a room is the layout of a run of the room (`room_embeds`), and every
run of a room is one of the server (`server_run_of_room`). What holds of all runs of the room holds
of all runs of the server.
-/

namespace OpenSimp

open Bytes FaultState ServerNetwork System

/-- The steps of a room. -/
inductive Room.Step (L : Library) (R : Room) : Event → Obs → Room → Prop where
  | accepted {p : Sock} {w : World} (hp : R.live p = false) (hstatus : w.status = .done) :
      Step L R (.accept p w) ⟨[.sent p (.clear (L.publicKey ++ [0]))], false, false⟩
        (R.connect p w.now hp)
  | declined {p : Sock} {w : World} (hp : R.live p = false) (hstatus : w.status ≠ .done) :
      Step L R (.accept p w) ⟨[], false, false⟩ R
  | served {i : ℕ} {w : World} {r : Row} {q : Reply} (hr : R.rows[i]? = some r)
      (hserve : R.serve L w i r = .ok q) :
      Step L R (.receive i w) ⟨q.acts, q.useAfterFree, false⟩ q.room

lemma Room.Step.served_inv {L : Library} {R R' : Room} {i : ℕ} {w : World} {o : Obs}
    (h : Room.Step L R (.receive i w) o R') :
    ∃ r q, R.rows[i]? = some r ∧ R.serve L w i r = .ok q ∧ o = ⟨q.acts, q.useAfterFree, false⟩ ∧
      R' = q.room := by
  cases h with
  | served hr hserve => exact ⟨_, _, hr, hserve, rfl, rfl⟩

/-- The room. -/
def room (L : Library) : System Room Event Obs := ⟨Room.Step L⟩

/-! ### Accepting -/

lemma pushRow_run (p : Sock) (now : ℕ) (m : Machine) :
    (pushRow p now).run m = .ok ((), { m with
      server := { m.server with
        clientArray := m.server.clientArray ++ [p]
        clientidArray := m.server.clientidArray ++ [sentinel]
        clientOpArray := m.server.clientOpArray ++ [false]
        clientAuthenticatedArray := m.server.clientAuthenticatedArray ++ [.undone]
        clientMessageInterval := m.server.clientMessageInterval ++ [now] }
      owners := fun v => m.owners v ++ [m.accepted] }) := by
  cases m
  exact congrArg (fun o => Except.ok ((), Machine.mk _ _ o _ _ _ _ _))
    (funext fun v => by cases v <;> rfl)

lemma countAccepted_run (m : Machine) :
    countAccepted.run m = .ok ((), { m with accepted := m.accepted + 1 }) := rfl

lemma allocate_run (p : Sock) (m : Machine) :
    (allocate p).run m = .ok ((), { m with live := fun q => if q = p then true else m.live q }) :=
  rfl

lemma Room.live_connect {R : Room} {p : Sock} (now : ℕ) (hp : R.live p = false) :
    (R.connect p now hp).live = fun q => if q = p then true else R.live q := by
  funext q
  simp only [Room.live, Room.connect, List.map_append, List.mem_append, List.map_singleton,
    List.mem_singleton]
  split_ifs with hq
  · simp [Row.fresh, hq]
  · simp [Row.fresh, hq]

/-- Accepting a connection adds a fresh row and sends the server's public key. -/
lemma connectClients_run_done {R : Room} {p : Sock} {w : World} (L : Library)
    (hp : R.live p = false) (hstatus : w.status = .done) :
    (connectClients L w p).run (R.during []) =
      .ok ((), (R.connect p w.now hp).during [.sent p (.clear (L.publicKey ++ [0]))]) := by
  have hroom : ∀ acts, (R.connect p w.now hp).during acts =
      { R.during acts with
        live := fun q => if q = p then true else R.live q
        owners := fun v => R.owners v ++ [R.accepted]
        accepted := R.accepted + 1
        server := { R.server with
          clientArray := R.server.clientArray ++ [p]
          clientidArray := R.server.clientidArray ++ [sentinel]
          clientOpArray := R.server.clientOpArray ++ [false]
          clientAuthenticatedArray := R.server.clientAuthenticatedArray ++ [.undone]
          clientMessageInterval := R.server.clientMessageInterval ++ [w.now] } } := by
    intro acts
    have howners : (R.connect p w.now hp).owners = fun v => R.owners v ++ [R.accepted] := by
      funext v
      simp [Room.owners, Room.connect, Row.fresh]
    rw [Room.during, Room.live_connect, howners]
    simp [Room.during, Room.server, Room.connect, Row.fresh]
  rw [connectClients, run_bind_ok (allocate_run _ _), if_pos hstatus,
    run_bind_ok (deref_run (by exact if_pos rfl)), run_bind_ok (pushRow_run _ _ _),
    run_bind_ok (deref_run (by exact if_pos rfl)),
    run_bind_ok (sendUnencrypted_run (by exact if_pos rfl)), countAccepted_run, hroom]
  rfl

lemma connectClients_run_ne {R : Room} {p : Sock} {w : World} (L : Library)
    (hp : R.live p = false) (hstatus : w.status ≠ .done) :
    (connectClients L w p).run (R.during []) = .ok ((), R.during []) := by
  have hlive : (fun q => if q = p then false else if q = p then true else R.live q) = R.live := by
    funext q
    split_ifs with hq
    · rw [hq, hp]
    · rfl
  rw [connectClients, run_bind_ok (allocate_run _ _), if_neg hstatus, delete_run]
  simp only [Room.during, hlive]

/-! ### The embedding -/

/-- Polling row `i` of the layout of a room. -/
lemma Room.code_receive_run {R : Room} {i : ℕ} {r : Row} (hr : R.rows[i]? = some r)
    (L : Library) (w : World) :
    (Event.code L (.receive i w)).run R.config.machine = Reply.result (R.serve L w i r) := by
  rw [Event.code, Room.config_machine, run_bind_ok (clientArray_run hr []), receive_run hr L w]

/-- Every step of the server from the layout of a room is a step of the room. -/
theorem room_embeds (L : Library) : Embeds (room L) (server L) Room.config := by
  rintro R e o c' ⟨henabled, m, hrun, rfl, rfl⟩
  cases e with
  | accept p w =>
    have hp : R.live p = false := henabled
    rw [Event.code, Room.config_machine] at hrun
    by_cases hstatus : w.status = .done
    · rw [connectClients_run_done L hp hstatus] at hrun
      obtain ⟨-, rfl⟩ := Prod.mk.inj (Except.ok.inj hrun)
      exact ⟨R.connect p w.now hp, rfl, .accepted hp hstatus⟩
    · rw [connectClients_run_ne L hp hstatus] at hrun
      obtain ⟨-, rfl⟩ := Prod.mk.inj (Except.ok.inj hrun)
      exact ⟨R, rfl, .declined hp hstatus⟩
  | receive i w =>
    have hi : i < R.rows.length := by rwa [Event.Enabled, Room.config_size] at henabled
    have hr := List.getElem?_eq_getElem hi
    rw [Room.code_receive_run hr] at hrun
    cases hserve : R.serve L w i R.rows[i] with
    | error e => rw [hserve] at hrun; cases hrun
    | ok q =>
      rw [hserve] at hrun
      obtain ⟨-, rfl⟩ := Prod.mk.inj (Except.ok.inj hrun)
      exact ⟨q.room, rfl, .served hr hserve⟩

/-- Every step of a room is a step of the server on its layout. -/
lemma server_step_of_room {L : Library} {R R' : Room} {e : Event} {o : Obs}
    (h : Room.Step L R e o R') : (server L).step R.config e o R'.config := by
  cases h with
  | accepted hp hstatus => exact ⟨hp, _, connectClients_run_done L hp hstatus, rfl, rfl⟩
  | declined hp hstatus => exact ⟨hp, _, connectClients_run_ne L hp hstatus, rfl, rfl⟩
  | @served i w r q hr hserve =>
    refine ⟨?_, q.machine, ?_, rfl, rfl⟩
    · rw [Event.Enabled, Room.config_size]
      exact (List.getElem?_eq_some_iff.mp hr).1
    · rw [Room.code_receive_run hr, hserve]
      rfl

/-- Every run of a room is one of the server. -/
lemma server_run_of_room {L : Library} {text : Bytes} {steps : List (System.Step Room Event Obs)}
    {R : Room} (h : (room L).Run (Room.init text) steps R) :
    (server L).Run (Config.init text) (steps.map (Step.map Room.config)) R.config := by
  rw [← Room.init_config]
  exact h.map fun _ _ _ _ => server_step_of_room

/-- Every run of the server is the layout of a run of the room. -/
lemma run_lift {L : Library} {text : Bytes} {steps : List (System.Step Config Event Obs)}
    {c : Config} (h : (server L).Run (Config.init text) steps c) :
    ∃ rsteps R, (room L).Run (Room.init text) rsteps R ∧ steps = rsteps.map (Step.map Room.config) ∧
      c = R.config := by
  rw [← Room.init_config] at h
  exact h.lift (room_embeds L)

lemma reachable_lift {L : Library} {text : Bytes} {c : Config}
    (h : (server L).Reachable (Config.init text) c) :
    ∃ R, (room L).Reachable (Room.init text) R ∧ c = R.config := by
  rw [← Room.init_config] at h
  exact h.lift (room_embeds L)

/-- The server is a table of clients: its runs are the runs of the room, each in the layout of the
server, and `receive` returns from a poll, or fails, as the room does. -/
theorem server_refines_room (L : Library) (text : Bytes) :
    (∀ steps c, (server L).Run (Config.init text) steps c ↔
      ∃ rsteps R, (room L).Run (Room.init text) rsteps R ∧
        steps = rsteps.map (Step.map Room.config) ∧ c = R.config) ∧
      ∀ (R : Room) (i : ℕ) (r : Row) (w : World), R.rows[i]? = some r →
        (Event.code L (.receive i w)).run R.config.machine = Reply.result (R.serve L w i r) := by
  refine ⟨fun steps c => ⟨run_lift, ?_⟩, fun R i r w hr => Room.code_receive_run hr L w⟩
  rintro ⟨rsteps, R, hrun, rfl, rfl⟩
  exact server_run_of_room hrun

end OpenSimp
