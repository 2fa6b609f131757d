import OpenSimp.Lib.Rounds
import OpenSimp.Properties.Handshakes
import OpenSimp.Properties.RateLimits
import OpenSimp.Properties.Sweeps

/-!
# Waiting for a turn

A pass of `manage` may miss a client, but every pass that does moves it up in the table, so that a
client that stays is missed by at most as many passes as there were clients before it, and by the
one under way. What a client sends is read whole and in order, at least one message in each of the
other passes.
-/

namespace OpenSimp

open Bytes FaultState System ServerNetwork

variable {R : Room} {L : Library} {w : World} {k k' n : ℕ} {r r' : Row}

namespace Manager

variable {s s₀ s' : Manager} {st : System.Step Manager Manager.Event Obs}
  {steps : List (System.Step Manager Manager.Event Obs)}

def Event.isSleep : Manager.Event → Bool
  | .sleep => true
  | _ => false

/-- The connection for which the step calls `receive`, if it does. -/
def polledBy (st : System.Step Manager Manager.Event Obs) : Option ℕ :=
  match st.event with
  | .poll _ => st.pre.polled?
  | _ => none

/-- How many passes end in some steps. -/
def passes (steps : List (System.Step Manager Manager.Event Obs)) : ℕ :=
  steps.countP (·.event.isSleep)

/-- How often some steps call `receive` for the connection `n`. -/
def polls (n : ℕ) (steps : List (System.Step Manager Manager.Event Obs)) : ℕ :=
  steps.countP (polledBy · = some n)

/-! ### The walk of `manage` -/

/-- A step of `manage` as a move over the connections of the table: it visits the connection that it
polls, and adds connections with numbers from `accepted` on. -/
structure Matches (accepted : ℕ) (st : System.Step Manager Manager.Event Obs)
    (mv : System.Step (Sweep.State ℕ) (Rounds.Move ℕ) (Option ℕ)) : Prop where
  obs : mv.obs = polledBy st
  restarts : mv.event.isRestart = st.event.isSleep
  appended : ∀ ns, mv.event = .append ns → ∀ n ∈ ns, accepted ≤ n

lemma walk_of_config (hconfig : s.config = R.config) :
    s.walk = ⟨R.rows.map Row.conn, s.iterator⟩ := by
  rw [walk, hconfig]
  rfl

lemma exists_move {userdata : Bytes} {accepted : ℕ}
    (hreach : (server L).Reachable (Config.init userdata) st.pre.config)
    (haccepted : accepted ≤ st.pre.config.accepted)
    (h : Manager.Step L st.pre st.event st.obs st.post) :
    ∃ e o, (Rounds.walk ℕ).step st.pre.walk e o st.post.walk ∧
      Matches accepted st ⟨st.pre.walk, e, o, st.post.walk⟩ := by
  obtain ⟨pre, e, o, post⟩ := st
  dsimp only at hreach haccepted h ⊢
  cases h with
  | @accept p w o c hstep =>
    obtain ⟨R, -, hconfig⟩ := reachable_lift hreach
    rw [hconfig] at hstep haccepted
    obtain ⟨R', rfl, hroom⟩ := room_embeds L R _ _ _ hstep
    rw [walk_of_config hconfig]
    cases hroom with
    | accepted hp hstatus =>
      have hwalk : walk ⟨(R.connect p w.now hp).config, pre.iterator⟩ =
          ⟨R.rows.map Row.conn ++ [R.accepted], pre.iterator⟩ := by
        rw [walk_of_config rfl]
        simp [Room.connect, Row.fresh]
      have hnodup : (R.rows.map Row.conn ++ [R.accepted]).Nodup := by
        have := (R.connect p w.now hp).nodup_conn
        simpa [Room.connect, Row.fresh] using this
      refine ⟨.append [R.accepted], none, ⟨rfl, hnodup, hwalk⟩, rfl, rfl, ?_⟩
      intro ns hns n hn
      cases hns
      rw [List.mem_singleton.mp hn]
      exact haccepted
    | declined hp hstatus =>
      have hnodup : (R.rows.map Row.conn ++ []).Nodup := by
        rw [List.append_nil]
        exact R.nodup_conn
      refine ⟨.append [], none, ⟨rfl, hnodup, ?_⟩, rfl, rfl, ?_⟩
      · rw [walk_of_config rfl, List.append_nil]
      · intro ns hns n hn
        cases hns
        exact absurd hn List.not_mem_nil
  | @poll w o c hstep =>
    have hpoll : Manager.Step L pre (.poll w) o ⟨c, pre.iterator + 1⟩ := .poll hstep
    obtain ⟨v, hvisit, hpre, hpost, hv, -⟩ :=
      @visit_of_step L w userdata ⟨pre, .poll w, o, ⟨c, pre.iterator + 1⟩⟩ hreach hpoll
    obtain ⟨n, hn, rfl⟩ := Option.map_eq_some_iff.mp hvisit
    obtain ⟨hget, hnext⟩ := hv
    exact ⟨.visit _, some n, ⟨n, rfl, hget, hnext⟩, hn.symm, rfl, fun _ hns => by cases hns⟩
  | sleep hend =>
    obtain ⟨R, -, hconfig⟩ := reachable_lift hreach
    refine ⟨.restart, none, ⟨rfl, ?_, rfl⟩, rfl, rfl, fun _ hns => by cases hns⟩
    rw [hconfig, Room.config_size] at hend
    rw [walk_of_config hconfig]
    simpa using hend

/-- No step takes back a connection number. -/
lemma accepted_le {userdata : Bytes} (hs : (manage L).Reachable (init userdata) s₀)
    (h : (manage L).Reachable s₀ s) : s₀.config.accepted ≤ s.config.accepted := by
  obtain ⟨steps, hrun⟩ := h
  induction hrun with
  | nil => exact le_rfl
  | @snoc steps s s' e o hrun hstep ih =>
    refine ih.trans ?_
    obtain ⟨pre, hpre⟩ := hs
    have hreach : (server L).Reachable (Config.init userdata) s.config :=
      manage_reachable ⟨steps, hrun⟩ (manage_reachable ⟨pre, hpre⟩ .refl)
    obtain ⟨R, -, hconfig⟩ := reachable_lift hreach
    cases hstep with
    | accept h =>
      rw [hconfig] at h ⊢
      obtain ⟨R', rfl, hroom⟩ := room_embeds L R _ _ _ h
      cases hroom with
      | accepted => exact Nat.le_succ _
      | declined => exact le_rfl
    | poll h =>
      rw [hconfig] at h ⊢
      obtain ⟨R', rfl, hroom⟩ := room_embeds L R _ _ _ h
      obtain ⟨r, q, -, hserve, -, rfl⟩ := hroom.served_inv
      exact (Room.accepted_of_serve hserve).ge
    | sleep => exact le_rfl

/-- The passes and polls of a run are the rounds and visits of the walk that matches it. -/
lemma passes_eq {accepted : ℕ}
    {moves : List (System.Step (Sweep.State ℕ) (Rounds.Move ℕ) (Option ℕ))}
    (h : List.Forall₂ (Matches accepted) steps moves) :
    passes steps = Rounds.restarts moves ∧ ∀ n, polls n steps = Rounds.visits n moves := by
  induction h with
  | nil => exact ⟨rfl, fun n => rfl⟩
  | cons hst _ ih =>
    refine ⟨?_, fun n => ?_⟩
    · rw [passes, List.countP_cons, Rounds.restarts, List.countP_cons, hst.restarts]
      exact congrArg (· + _) ih.1
    · rw [polls, List.countP_cons, Rounds.visits, List.countP_cons, hst.obs]
      exact congrArg (· + _) (ih.2 n)

/-- A run of `manage` walks the table round after round, and a client that stays goes from row `k`
to row `k'`. -/
lemma passes_le_polls {userdata : Bytes} (hs : (manage L).Reachable (init userdata) s)
    (h : (manage L).Run s steps s') (hr : s.config.row? k = some r)
    (hr' : s'.config.row? k' = some r') (hconn : r'.conn = r.conn) :
    passes steps + k' + Rounds.past s'.walk k' ≤
        k + Rounds.past s.walk k + polls r.conn steps ∧
      polls r.conn steps + Rounds.past s.walk k ≤ passes steps + Rounds.past s'.walk k' := by
  have hserver : ∀ {t}, (manage L).Reachable s t →
      (server L).Reachable (Config.init userdata) t.config :=
    fun ht => manage_reachable ht (manage_reachable hs .refl)
  have hstep : ∀ st : System.Step Manager Manager.Event Obs, st ∈ steps →
      (manage L).Reachable s st.pre → (manage L).step st.pre st.event st.obs st.post →
      ∃ e o, (Rounds.walk ℕ).step st.pre.walk e o st.post.walk ∧
        Matches s.config.accepted st ⟨st.pre.walk, e, o, st.post.walk⟩ :=
    fun st hst hreach hstep => exists_move (hserver hreach) (accepted_le hs hreach) hstep
  obtain ⟨moves, hrun, hmatches⟩ := h.simulate hstep
  obtain ⟨R, -, hconfig⟩ := reachable_lift (hserver .refl)
  obtain ⟨R', -, hconfig'⟩ := reachable_lift (hserver h.reachable)
  rw [hconfig, Room.config_row?] at hr
  rw [hconfig', Room.config_row?] at hr'
  have hget : s.walk.list[k]? = some r.conn := by
    rw [walk_of_config hconfig, List.getElem?_map, hr, Option.map_some]
  have hget' : s'.walk.list[k']? = some r.conn := by
    rw [walk_of_config hconfig', List.getElem?_map, hr', Option.map_some, hconn]
  have hnodup : s.walk.list.Nodup := by
    rw [walk_of_config hconfig]
    exact R.nodup_conn
  have hnodup' : s'.walk.list.Nodup := by
    rw [walk_of_config hconfig']
    exact R'.nodup_conn
  have hspares : Rounds.Spares r.conn moves := by
    intro mv hmv ns hns hmem
    obtain ⟨st, -, hst⟩ := List.exists_mem_of_forall₂ hmatches hmv
    have hle := hst.appended ns hns r.conn hmem
    have hlt : r.conn < s.config.accepted := by
      rw [hconfig]
      exact R.conn_lt r (List.mem_of_getElem? hr)
    omega
  obtain ⟨p, hp, hle⟩ := Rounds.exists_position_of_run hrun hnodup hspares hget
    (List.mem_of_getElem? hget')
  have hpk : p = k' := (List.getElem?_inj (List.getElem?_eq_some_iff.mp hp).1 hnodup').mp
    (hp.trans hget'.symm)
  obtain ⟨hpasses, hpolls⟩ := passes_eq hmatches
  rw [hpasses, hpolls, ← hpk]
  exact hle

end Manager

/-- A client that stays is polled in every pass but those that move it up in the table, and one
more, and in no pass twice. -/
theorem polled_in_turn (L : Library) {userdata : Bytes} {s s' : Manager}
    {steps : List (System.Step Manager Manager.Event Obs)}
    (hs : (manage L).Reachable (Manager.init userdata) s) (h : (manage L).Run s steps s')
    (hr : s.config.row? k = some r) (hr' : s'.config.row? k' = some r')
    (hconn : r'.conn = r.conn) :
    Manager.passes steps + k' ≤
        Manager.polls r.conn steps + k + (if k < s.iterator then 1 else 0) ∧
      Manager.polls r.conn steps + (if k < s.iterator then 1 else 0) ≤
        Manager.passes steps + (if k' < s'.iterator then 1 else 0) := by
  obtain ⟨hle, hge⟩ := Manager.passes_le_polls hs h hr hr' hconn
  have hpast : Rounds.past s.walk k = if k < s.iterator then 1 else 0 := rfl
  have hpast' : Rounds.past s'.walk k' = if k' < s'.iterator then 1 else 0 := rfl
  rw [hpast] at hle hge
  rw [hpast'] at hge
  exact ⟨by omega, hge⟩

lemma Manager.run_of_play {es : List Manager.Event}
    {steps : List (System.Step Manager Manager.Event Obs)} {s₀ s : Manager}
    (h : System.play (Manager.fire L) s₀ es = some (steps, s)) : (manage L).Run s₀ steps s :=
  System.run_of_play (fun _ _ _ hfire => Manager.fire_eq_some hfire) h

/-- The first of two clients leaves, and the pass misses the second. -/
theorem polled_in_turn_toy :
    ∃ s steps s', System.play (Manager.fire toy) s [Toy.hangsUp, .sleep, Toy.waits, .sleep] =
        some (steps, s') ∧ Manager.passes steps = 2 ∧ Manager.polls 1 steps = 1 ∧
      (Manager.passes steps + 0 ≤
          Manager.polls 1 steps + 1 + (if 1 < s.iterator then 1 else 0) ∧
        Manager.polls 1 steps + (if 1 < s.iterator then 1 else 0) ≤
          Manager.passes steps + (if 0 < s'.iterator then 1 else 0)) := by
  have hsome : ((System.play (Manager.fire toy) (Manager.init [])
      [.accept 1 (Toy.world .done [] 0), .accept 2 (Toy.world .done [] 0)]).bind fun x =>
        (System.play (Manager.fire toy) x.2 [Toy.hangsUp, .sleep, Toy.waits, .sleep]).map fun y =>
          ((x.2.config.row? 1).map (·.conn), y.2.config.row? 0, Manager.passes y.1,
            Manager.polls 1 y.1)) =
      some (some 1, some ⟨⟨sentinel, false, .undone, 0⟩, 1, 2⟩, 2, 1) := by decide +kernel
  obtain ⟨⟨pre, s⟩, hpre, hrest⟩ := Option.bind_eq_some_iff.mp hsome
  obtain ⟨⟨steps, s'⟩, hplay, heq⟩ := Option.map_eq_some_iff.mp hrest
  simp only [Prod.mk.injEq] at heq
  obtain ⟨hrow, hrow', hpasses, hpolls⟩ := heq
  obtain ⟨r, hr, hconn⟩ := Option.map_eq_some_iff.mp hrow
  have hturns := polled_in_turn toy ⟨pre, Manager.run_of_play hpre⟩ (Manager.run_of_play hplay) hr
    hrow' hconn.symm
  rw [hconn] at hturns
  exact ⟨s, steps, s', hplay, hpasses, hpolls, hturns⟩

/-! ### Messages -/

namespace Clocked

variable {s s₀ s' : Clocked} {st : System.Step Clocked Clocked.Event Obs}
  {steps : List (System.Step Clocked Clocked.Event Obs)}

/-- The step of `manage` in a step of the clocked server. -/
def managed? (st : System.Step Clocked Clocked.Event Obs) :
    Option (System.Step Manager Manager.Event Obs) :=
  match st.event with
  | .send _ _ _ => none
  | .accept p w => some ⟨st.pre.manager, .accept p w, st.obs, st.post.manager⟩
  | .poll w => some ⟨st.pre.manager, .poll w, st.obs, st.post.manager⟩
  | .sleep _ => some ⟨st.pre.manager, .sleep, st.obs, st.post.manager⟩

/-- The steps of `manage` in some steps. -/
def managed (steps : List (System.Step Clocked Clocked.Event Obs)) :
    List (System.Step Manager Manager.Event Obs) := steps.filterMap managed?

/-- What the client on the connection `n` sends in a step. -/
def sent (n : ℕ) (st : System.Step Clocked Clocked.Event Obs) : List Bytes :=
  match st.event with
  | .send k _ data => if (st.pre.manager.config.row? k).map (·.conn) = some n then [data] else []
  | _ => []

/-- What the server receives from the connection `n` in a step. -/
def received (n : ℕ) (st : System.Step Clocked Clocked.Event Obs) : List Bytes :=
  match st.event with
  | .poll w => if st.pre.manager.polled? = some n ∧ w.data ≠ [] then [w.data] else []
  | _ => []

/-- What the client on the connection `n` has sent and the server has not received. -/
def waiting (s : Clocked) (n : ℕ) : List Bytes := (s.inbox n).map (·.data)

lemma managed_run (h : (clocked L).Run s₀ steps s) :
    (manage L).Run s₀.manager (managed steps) s.manager := by
  refine h.filterMap (f := Clocked.manager) (p := managed?) ?_ ?_
  · intro st hst st' hst'
    obtain ⟨pre, e, o, post⟩ := st
    have hstep : Clocked.Step L pre e o post := (h.of_mem hst).2
    cases hstep with
    | send => cases hst'
    | accept _ h | poll _ _ _ _ _ h | sleep _ _ h =>
      cases hst'
      exact ⟨rfl, rfl, h⟩
  · intro st hst hnone
    obtain ⟨pre, e, o, post⟩ := st
    have hstep : Clocked.Step L pre e o post := (h.of_mem hst).2
    cases hstep with
    | send => rfl
    | accept | poll | sleep => cases hnone

lemma waiting_deliver (s : Clocked) (n' : ℕ) (m : Message) (n : ℕ) :
    (s.deliver n' m).waiting n = s.waiting n ++ if n' = n then [m.data] else [] := by
  rw [waiting, deliver]
  dsimp only
  by_cases hn : n = n'
  · subst hn
    simp [waiting]
  · rw [if_neg hn, if_neg (Ne.symm hn), List.append_nil, waiting]

/-- A poll receives the oldest waiting message, if there is one. -/
lemma waiting_polled {n' : ℕ} (hread : s.Reads n' w) (manager : Manager) (n : ℕ) :
    (if some n' = some n ∧ w.data ≠ [] then [w.data] else []) ++ (s.polled n' w manager).waiting n =
      s.waiting n := by
  by_cases hn : n' = n
  · subst hn
    have hpolled : (s.polled n' w manager).waiting n' = (s.waiting n').tail := by
      rw [waiting, polled, waiting, ← List.map_tail]
      simp
    rw [Reads] at hread
    rw [hpolled]
    cases hinbox : s.inbox n' with
    | nil =>
      rw [hinbox] at hread
      simp [waiting, hinbox, hread]
    | cons m rest =>
      rw [hinbox] at hread
      have hne : w.data ≠ [] := by
        rw [hread.2]
        exact m.data_ne_nil
      rw [if_pos ⟨rfl, hne⟩, waiting, hinbox, List.map_cons, List.tail_cons, hread.2]
      rfl
  · have hpolled : (s.polled n' w manager).waiting n = s.waiting n := by
      rw [waiting, polled, waiting]
      simp [Ne.symm hn]
    simp [hn, hpolled]

lemma polled?_of_row {s : Manager} (hr : s.config.row? s.iterator = some r) :
    s.polled? = some r.conn := by
  rw [Manager.polled?, hr, Option.map_some]

/-- A step loses no message, doubles none and keeps their order. -/
lemma waiting_step {e : Clocked.Event} {o : Obs} (h : (clocked L).step s e o s') (n : ℕ) :
    s.waiting n ++ sent n ⟨s, e, o, s'⟩ = received n ⟨s, e, o, s'⟩ ++ s'.waiting n := by
  cases h with
  | @send k t data r hr hnow hne hlen =>
    rw [waiting_deliver]
    simp only [sent, received, hr, Option.map_some, Option.some.injEq, List.nil_append]
    rfl
  | accept => exact List.append_nil _
  | @poll w o manager r hr hnow hfree hlater hread h =>
    have hpolled := waiting_polled hread manager n
    simp only [sent, received, polled?_of_row hr, List.append_nil]
    exact hpolled.symm
  | sleep => exact List.append_nil _

/-- What has been received and what waits is what waited and what has been sent, in this order. -/
lemma waiting_run (h : (clocked L).Run s₀ steps s) (n : ℕ) :
    s₀.waiting n ++ steps.flatMap (sent n) = steps.flatMap (received n) ++ s.waiting n := by
  induction h with
  | nil => exact List.append_nil _
  | @snoc steps s s' e o hrun hstep ih =>
    rw [List.flatMap_append, List.flatMap_append, List.flatMap_singleton, List.flatMap_singleton,
      ← List.append_assoc, ih, List.append_assoc, waiting_step hstep, List.append_assoc]

lemma polls_singleton (n : ℕ) (st : System.Step Clocked Clocked.Event Obs) :
    Manager.polls n (managed [st]) = match st.event with
      | .poll _ => if st.pre.manager.polled? = some n then 1 else 0
      | _ => 0 := by
  obtain ⟨pre, e, o, post⟩ := st
  cases e with
  | send | accept | sleep => simp [managed, managed?, Manager.polls, Manager.polledBy]
  | poll w =>
    by_cases hn : pre.manager.polled? = some n
    · simp [managed, managed?, Manager.polls, Manager.polledBy, hn]
    · simp [managed, managed?, Manager.polls, Manager.polledBy, hn]

/-- Every poll receives a message until all that waited at the start have been received. -/
lemma polls_le_received (h : (clocked L).Run s₀ steps s) (n : ℕ) :
    min (Manager.polls n (managed steps)) (s₀.waiting n).length ≤
      (steps.flatMap (received n)).length := by
  induction h with
  | nil => simp [managed, Manager.polls]
  | @snoc steps s s' e o hrun hstep ih =>
    have hpolls : Manager.polls n (managed (steps ++ [⟨s, e, o, s'⟩])) =
        Manager.polls n (managed steps) + Manager.polls n (managed [⟨s, e, o, s'⟩]) := by
      rw [managed, List.filterMap_append, Manager.polls, List.countP_append]
      rfl
    rw [hpolls, polls_singleton, List.flatMap_append, List.length_append, List.flatMap_singleton]
    cases hstep with
    | send | accept | sleep =>
      dsimp only
      omega
    | @poll w o manager r hr hnow hfree hlater hread h =>
      dsimp only
      by_cases hn : s.manager.polled? = some n
      · by_cases hdata : w.data = []
        · -- nothing waits, so all that waited at the start has been received
          have hall := congrArg List.length (waiting_run hrun n)
          have hnone : s.waiting n = [] := by
            rw [polled?_of_row hr, Option.some.injEq] at hn
            rw [hn, Reads] at hread
            rw [waiting]
            cases hinbox : s.inbox n with
            | nil => rfl
            | cons m rest =>
              rw [hinbox] at hread
              exact absurd (hread.2.symm.trans hdata) m.data_ne_nil
          rw [hnone, List.append_nil, List.length_append] at hall
          omega
        · have hone : received n ⟨s, .poll w, o, s.polled r.conn w manager⟩ = [w.data] :=
            if_pos ⟨hn, hdata⟩
          rw [if_pos hn, hone, List.length_singleton]
          omega
      · rw [if_neg hn]
        omega

end Clocked

/-- What the client of row `k` has sent is received in order, nothing of it is lost or doubled, and
in every pass but `k + 1` a message that waits is received, as long as the client stays. -/
theorem received_in_turn (L : Library) {userdata : Bytes} {s s' : Clocked}
    {steps : List (System.Step Clocked Clocked.Event Obs)}
    (hs : (clocked L).Reachable (Clocked.init userdata) s) (h : (clocked L).Run s steps s')
    (hr : s.manager.config.row? k = some r) (hr' : s'.manager.config.row? k' = some r')
    (hconn : r'.conn = r.conn) :
    s.waiting r.conn ++ steps.flatMap (Clocked.sent r.conn) =
        steps.flatMap (Clocked.received r.conn) ++ s'.waiting r.conn ∧
      (s.waiting r.conn).take (Manager.passes (Clocked.managed steps) - (k + 1)) <+:
        steps.flatMap (Clocked.received r.conn) := by
  have hwaiting := Clocked.waiting_run h r.conn
  refine ⟨hwaiting, ?_⟩
  have hturns :=
    Manager.passes_le_polls (clocked_reachable hs) (Clocked.managed_run h) hr hr' hconn
  have hreceived := Clocked.polls_le_received h r.conn
  have hpast : Rounds.past s.manager.walk k ≤ 1 := by
    rw [Rounds.past]
    split_ifs <;> omega
  have htake : (s.waiting r.conn).take (Manager.passes (Clocked.managed steps) - (k + 1)) <+:
      steps.flatMap (Clocked.received r.conn) ++ s'.waiting r.conn := by
    rw [← hwaiting]
    exact (List.take_prefix _ _).trans (List.prefix_append _ _)
  apply List.prefix_of_prefix_length_le htake (List.prefix_append _ _)
  rw [List.length_take]
  omega

/-- The second of two clients sends its credentials, and the first leaves. -/
theorem received_in_turn_toy :
    ∃ s steps s', System.play (Clocked.fire toy) s
        [.poll (Toy.world .disconnected [] 0), .sleep 100,
          Toy.hears (Toy.logsIn (ascii "bob") (ascii "pw")) 100, .sleep 200, Toy.idles 200,
          .sleep 300] = some (steps, s') ∧
      s.waiting 1 = [Toy.logsIn (ascii "bob") (ascii "pw")] ∧
      (s.waiting 1 ++ steps.flatMap (Clocked.sent 1) =
          steps.flatMap (Clocked.received 1) ++ s'.waiting 1 ∧
        (s.waiting 1).take (Manager.passes (Clocked.managed steps) - (1 + 1)) <+:
          steps.flatMap (Clocked.received 1)) := by
  have hsome : ((System.play (Clocked.fire toy) (Clocked.init [])
      [.accept 1 (Toy.world .done [] 0), .accept 2 (Toy.world .done [] 0),
        .send 1 0 (Toy.logsIn (ascii "bob") (ascii "pw"))]).bind fun x =>
      (System.play (Clocked.fire toy) x.2
        [.poll (Toy.world .disconnected [] 0), .sleep 100,
          Toy.hears (Toy.logsIn (ascii "bob") (ascii "pw")) 100, .sleep 200, Toy.idles 200,
          .sleep 300]).map fun y =>
        ((x.2.manager.config.row? 1).map (·.conn), (y.2.manager.config.row? 0).map (·.conn),
          x.2.waiting 1)) =
      some (some 1, some 1, [Toy.logsIn (ascii "bob") (ascii "pw")]) := by decide +kernel
  obtain ⟨⟨pre, s⟩, hpre, hrest⟩ := Option.bind_eq_some_iff.mp hsome
  obtain ⟨⟨steps, s'⟩, hplay, heq⟩ := Option.map_eq_some_iff.mp hrest
  simp only [Prod.mk.injEq] at heq
  obtain ⟨hrow, hrow', hwaiting⟩ := heq
  obtain ⟨r, hr, hconn⟩ := Option.map_eq_some_iff.mp hrow
  obtain ⟨r', hr', hconn'⟩ := Option.map_eq_some_iff.mp hrow'
  have hturns := received_in_turn toy ⟨pre, Clocked.run_of_play hpre⟩ (Clocked.run_of_play hplay)
    hr hr' (hconn'.trans hconn.symm)
  rw [hconn] at hturns
  exact ⟨s, steps, s', hplay, hwaiting, hturns⟩

end OpenSimp
