import OpenSimp.Lib.Sweep
import OpenSimp.Room.Presence
import OpenSimp.Server.Manage
import OpenSimp.Toy.Library

/-!
# Passes over the table

A pass of `manage`'s inner loop walks the table by index while `receive` may erase the row at the
index. The next client then moves to a position that the pass is done with and waits for the next
pass. So a pass serves everybody exactly if only clients at the end of the table are disconnected.
-/

namespace OpenSimp

open Bytes FaultState System ServerNetwork

variable {R : Room} {L : Library} {w : World} {i : ℕ} {r : Row} {req : Request} {q : Reply}

/-- The poll of row `i` disconnects its client: it leaves or is kicked for what it sends. -/
def Config.Disconnects (c : Config) (L : Library) (i : ℕ) (w : World) : Prop :=
  ∃ r req a, c.row? i = some r ∧ c.request w r L = .ok req ∧
    c.announcement L r req = some (.left a)

/-- One pass of the inner loop over the table of `c`, during which nobody connects. -/
structure Manager.Pass (L : Library) (c : Config)
    (steps : List (System.Step Manager Manager.Event Obs)) (s : Manager) : Prop where
  run : (manage L).Run ⟨c, 0⟩ steps s
  polls : ∀ st ∈ steps, ∃ w, st.event = .poll w
  finished : s.config.size ≤ s.iterator

/-- The connection for which `receive` is called. -/
def Manager.polled? (s : Manager) : Option ℕ := (s.config.row? s.iterator).map (·.conn)

/-- The connections for which `receive` is called in some steps. -/
def Manager.served (steps : List (System.Step Manager Manager.Event Obs)) : List ℕ :=
  steps.filterMap fun st => st.pre.polled?

/-! ### Polls of the room -/

lemma Room.exists_disconnects (hr : R.rows[i]? = some r) (hreq : R.request L w r = .ok req) :
    R.config.Disconnects L i w ↔ ∃ a, R.config.announcement L r req = some (.left a) := by
  constructor
  · rintro ⟨r', req', a, hr', hreq', ha⟩
    rw [Room.config_row?, hr, Option.some.injEq] at hr'
    subst hr'
    rw [Room.config_request, hreq, Except.ok.injEq] at hreq'
    exact ⟨a, hreq' ▸ ha⟩
  · rintro ⟨a, ha⟩
    exact ⟨r, req, a, by rw [Room.config_row?, hr], hreq, ha⟩

/-- Only who leaves makes the aliases fewer. -/
lemma length_announced_lt_iff {ids : List Bytes} (hi : i < ids.length)
    {x : Option (Announcement Bytes)} :
    (announced i ids x).length < ids.length ↔ ∃ a, x = some (.left a) := by
  cases x with
  | none => simp [announced]
  | some x =>
    cases x with
    | joined a => simp [announced]
    | left a =>
      simp only [announced, List.length_eraseIdx_of_lt hi, Option.some.injEq,
        Announcement.left.injEq, exists_eq', iff_true]
      exact Nat.sub_one_lt_of_lt hi

lemma Room.length_serve_lt_iff (hr : R.rows[i]? = some r) (h : R.serve L w i r = .ok q) :
    q.room.rows.length < R.rows.length ↔ R.config.Disconnects L i w := by
  obtain ⟨req, hreq, -⟩ := Room.serve_outcome h
  have hids := (Room.serve_announced hr hreq h).clientids
  have hi : i < R.clientids.length := by
    rw [Room.clientids, List.length_map]
    exact (List.getElem?_eq_some_iff.mp hr).1
  rw [Room.exists_disconnects hr hreq, ← length_announced_lt_iff hi, ← hids, Room.clientids,
    Room.clientids, List.length_map, List.length_map]

/-- A poll erases the row of the client that it disconnects, and no other. -/
lemma Room.rows_serve (hr : R.rows[i]? = some r) (h : R.serve L w i r = .ok q) :
    (R.config.Disconnects L i w ∧ q.room.rows = R.rows.eraseIdx i) ∨
      (¬ R.config.Disconnects L i w ∧ ∃ f, q.room.rows = R.rows.modify i (Row.update f)) := by
  obtain ⟨req, -, hout⟩ := Room.serve_outcome h
  rw [← Room.length_serve_lt_iff hr h]
  rcases hout.changes_or_erases with ⟨f, hc⟩ | hc
  · refine .inr ⟨?_, f, hc.rows⟩
    rw [hc.rows, List.length_modify]
    exact lt_irrefl _
  · have hi := (List.getElem?_eq_some_iff.mp hr).1
    refine .inl ⟨?_, hc.rows⟩
    rw [hc.rows, List.length_eraseIdx_of_lt hi]
    exact Nat.sub_one_lt_of_lt hi

/-- An iteration of the inner loop is a poll of a room. -/
lemma Manager.Step.poll_room {s s' : Manager} {o : Obs} (hconfig : s.config = R.config)
    (h : Manager.Step L s (.poll w) o s') :
    ∃ r q, R.rows[s.iterator]? = some r ∧ R.serve L w s.iterator r = .ok q ∧
      o = ⟨q.acts, q.useAfterFree, false⟩ ∧ s' = ⟨q.room.config, s.iterator + 1⟩ := by
  cases h with
  | poll h =>
    rw [hconfig] at h
    obtain ⟨R', rfl, hstep⟩ := room_embeds L R _ _ _ h
    obtain ⟨r, q, hr, hserve, rfl, rfl⟩ := hstep.served_inv
    exact ⟨r, q, hr, hserve, rfl, rfl⟩

/-! ### The walk of a pass -/

namespace Manager

/-- The connections of the table and the position of the loop. -/
def walk (s : Manager) : Sweep.State ℕ := ⟨s.config.owners .clientArray, s.iterator⟩

/-- A poll as a visit, which erases the row if the table is shorter after it. -/
def visit (st : System.Step Manager Manager.Event Obs) :
    Option (System.Step (Sweep.State ℕ) Bool ℕ) :=
  st.pre.polled?.map fun n =>
    ⟨st.pre.walk, decide (st.post.config.size < st.pre.config.size), n, st.post.walk⟩

lemma visited_visit (steps : List (System.Step Manager Manager.Event Obs)) :
    Sweep.visited (steps.filterMap visit) = served steps := by
  rw [Sweep.visited, served, List.map_filterMap]
  congr 1
  funext st
  rw [visit, Option.map_map]
  exact Option.map_id'

/-- A poll visits the row at the index, and erases it if it disconnects the client. -/
lemma visit_of_step {userdata : Bytes} {st : System.Step Manager Manager.Event Obs}
    (hreach : (server L).Reachable (Config.init userdata) st.pre.config)
    (h : Manager.Step L st.pre (.poll w) st.obs st.post) :
    ∃ v, visit st = some v ∧ v.pre = st.pre.walk ∧ v.post = st.post.walk ∧
      (Sweep.walk ℕ).step v.pre v.event v.obs v.post ∧
      (v.event = true ↔ st.pre.config.Disconnects L st.pre.iterator w) := by
  obtain ⟨R, -, hconfig⟩ := reachable_lift hreach
  obtain ⟨r, q, hr, hserve, -, hpost⟩ := h.poll_room hconfig
  have hshorter := Room.length_serve_lt_iff hr hserve
  have hpolled : st.pre.polled? = some r.conn := by
    rw [polled?, hconfig, Room.config_row?, hr]
    rfl
  have hconn : st.pre.walk.list[st.pre.walk.index]? = some r.conn := by
    simp [walk, hconfig, Room.config, Room.owners, hr]
  refine ⟨_, by rw [visit, hpolled]; rfl, rfl, rfl, ⟨hconn, ?_⟩, ?_⟩
  all_goals
    rw [hpost]
    simp only [walk, hconfig, Room.config_size]
  · rcases Room.rows_serve hr hserve with ⟨hdisc, hrows⟩ | ⟨hdisc, f, hrows⟩
    · rw [if_pos (decide_eq_true (hshorter.mpr hdisc))]
      simp [Room.config, Room.owners, hrows, List.eraseIdx_map]
    · rw [if_neg (by simpa using mt hshorter.mp hdisc)]
      simp [Room.config, Room.owners, hrows, Row.map_conn_modify]
  · rw [decide_eq_true_iff]
    exact hshorter

section Pass

variable {userdata : Bytes} {c : Config} {steps : List (System.Step Manager Manager.Event Obs)}
  {s : Manager} {st : System.Step Manager Manager.Event Obs}

lemma Pass.exists_visit (hpass : Pass L c steps s) (hst : st ∈ steps)
    (h : (server L).Reachable (Config.init userdata) c) :
    ∃ w v, st.event = .poll w ∧ visit st = some v ∧ v.pre = st.pre.walk ∧ v.post = st.post.walk ∧
      (Sweep.walk ℕ).step v.pre v.event v.obs v.post ∧
      (v.event = true ↔ st.pre.config.Disconnects L st.pre.iterator w) := by
  obtain ⟨hreach, hstep⟩ := hpass.run.of_mem hst
  obtain ⟨w, hw⟩ := hpass.polls st hst
  rw [hw] at hstep
  obtain ⟨v, hv⟩ := visit_of_step (manage_reachable hreach h) hstep
  exact ⟨w, v, hw, hv⟩

/-- A pass walks the connections of the table. -/
lemma Pass.walk_run (hpass : Pass L c steps s) (h : (server L).Reachable (Config.init userdata) c) :
    (Sweep.walk ℕ).Run ⟨c.owners .clientArray, 0⟩ (steps.filterMap visit) s.walk := by
  refine hpass.run.filterMap (f := walk) (fun st hst v hv => ?_) (fun st hst hnone => ?_)
  · obtain ⟨-, v', -, hv', hpre, hpost, hstep, -⟩ := hpass.exists_visit hst h
    cases hv.symm.trans hv'
    exact ⟨hpre, hpost, hstep⟩
  · obtain ⟨-, v', -, hv', -⟩ := hpass.exists_visit hst h
    cases hnone.symm.trans hv'

lemma length_owners (h : (server L).Reachable (Config.init userdata) c) :
    (c.owners .clientArray).length = c.size := by
  obtain ⟨R, -, rfl⟩ := reachable_lift h
  rw [Room.config_size]
  exact List.length_map _

/-- The steps of a pass erase nothing but the last row exactly if only last rows disconnect. -/
lemma Pass.forall_settled_iff (hpass : Pass L c steps s)
    (h : (server L).Reachable (Config.init userdata) c) :
    (∀ v ∈ steps.filterMap visit, Sweep.Settled v) ↔ ∀ st ∈ steps, ∀ w, st.event = .poll w →
      st.pre.config.Disconnects L st.pre.iterator w →
      st.pre.iterator + 1 = st.pre.config.size := by
  constructor
  · intro hall st hst w hw hdisc
    obtain ⟨w', v, hw', hv, hpre, -, -, hevent⟩ := hpass.exists_visit hst h
    cases hw.symm.trans hw'
    have hsettled := hall v (List.mem_filterMap.mpr ⟨st, hst, hv⟩) (hevent.mpr hdisc)
    rw [hpre] at hsettled
    exact hsettled.trans (length_owners (manage_reachable (hpass.run.of_mem hst).1 h))
  · intro hall v hv htrue
    obtain ⟨st, hst, hvisit⟩ := List.mem_filterMap.mp hv
    obtain ⟨w, v', hw, hv', hpre, -, -, hevent⟩ := hpass.exists_visit hst h
    cases hvisit.symm.trans hv'
    rw [hpre]
    exact (hall st hst w hw (hevent.mp htrue)).trans
      (length_owners (manage_reachable (hpass.run.of_mem hst).1 h)).symm

end Pass

end Manager

/-- A pass serves nobody twice, and everybody exactly if every client that it disconnects is at the
end of the table then. -/
theorem passes_serve_iff (L : Library) {userdata : Bytes} {c : Config}
    (h : (server L).Reachable (Config.init userdata) c)
    {steps : List (System.Step Manager Manager.Event Obs)} {s : Manager}
    (hpass : Manager.Pass L c steps s) :
    (∀ n, (Manager.served steps).count n ≤ 1) ∧
    ((∀ k r, c.row? k = some r → (Manager.served steps).count r.conn = 1) ↔
      ∀ st ∈ steps, ∀ w, st.event = .poll w →
        st.pre.config.Disconnects L st.pre.iterator w →
        st.pre.iterator + 1 = st.pre.config.size) := by
  have hwalk := hpass.walk_run h
  have hend : s.walk.list.length ≤ s.walk.index :=
    (Manager.length_owners (manage_reachable hpass.run.reachable h)).le.trans hpass.finished
  obtain ⟨R, -, rfl⟩ := reachable_lift h
  have hnodup : (R.config.owners .clientArray).Nodup := R.nodup_conn
  refine ⟨fun n => ?_, ?_⟩
  · rw [← Manager.visited_visit]
    exact Sweep.count_visited_le_one hwalk hend hnodup n
  · rw [← hpass.forall_settled_iff h, ← Sweep.forall_count_visited_iff hwalk hend hnodup,
      Manager.visited_visit]
    constructor
    · intro hall n hn
      obtain ⟨r, hr, rfl⟩ := List.mem_map.mp hn
      obtain ⟨k, hk⟩ := List.mem_iff_getElem?.mp hr
      exact hall k r (by rw [Room.config_row?, hk])
    · intro hall k r hr
      rw [Room.config_row?] at hr
      exact hall r.conn (List.mem_map_of_mem (List.mem_of_getElem? hr))

/-! ### A client that leaves -/

lemma Manager.pass_of_play {c : Config} {es : List Manager.Event}
    {steps : List (System.Step Manager Manager.Event Obs)} {s : Manager}
    (h : System.play (Manager.fire L) ⟨c, 0⟩ es = some (steps, s))
    (hpolls : ∀ e ∈ es, ∃ w, e = .poll w) (hfinished : s.config.size ≤ s.iterator) :
    Manager.Pass L c steps s where
  run := System.run_of_play (fun _ _ _ hfire => Manager.fire_eq_some hfire) h
  polls := by
    intro st hst
    have hevents := System.map_event_of_play
      (fun s e st hfire => (Manager.fire_eq_some hfire).2.1) h
    exact hpolls st.event (hevents ▸ List.mem_map_of_mem hst)
  finished := hfinished

namespace Toy

/-- Two connections. -/
def pair : List Event := [joins 1, joins 2]

/-- A poll that finds the connection of its client closed. -/
def hangsUp : Manager.Event := .poll (world .disconnected [] 0)

/-- A poll that finds nothing to read. -/
def waits : Manager.Event := .poll (world .notReady [] 0)

/-- The pass of some polls over the table of two clients. -/
lemma exists_pass {es : List Manager.Event} (served : List ℕ) (hpolls : ∀ e ∈ es, ∃ w, e = .poll w)
    (h : (play toy (Config.init []) pair).bind (fun x =>
      (System.play (Manager.fire toy) ⟨x.2, 0⟩ es).map fun y =>
        ((x.2.row? 1).map (·.conn), Manager.served y.1, decide (y.2.config.size ≤ y.2.iterator))) =
      some (some 1, served, true)) :
    ∃ c r steps s, (server toy).Reachable (Config.init []) c ∧ c.row? 1 = some r ∧ r.conn = 1 ∧
      Manager.Pass toy c steps s ∧ Manager.served steps = served := by
  obtain ⟨⟨csteps, c⟩, hplay, h⟩ := Option.bind_eq_some_iff.mp h
  obtain ⟨⟨steps, s⟩, hpass, heq⟩ := Option.map_eq_some_iff.mp h
  simp only [Prod.mk.injEq] at heq
  obtain ⟨hconn, hserved, hfinished⟩ := heq
  obtain ⟨r, hr, hconn⟩ := Option.map_eq_some_iff.mp hconn
  exact ⟨c, r, steps, s, (run_of_play hplay).reachable, hr, hconn,
    Manager.pass_of_play hpass hpolls (of_decide_eq_true hfinished), hserved⟩

end Toy

/-- The second of two clients leaves. -/
theorem passes_serve_iff_toy :
    ∃ c steps s, Manager.Pass toy c steps s ∧ (∀ n, (Manager.served steps).count n ≤ 1) ∧
      ((∀ k r, c.row? k = some r → (Manager.served steps).count r.conn = 1) ↔
        ∀ st ∈ steps, ∀ w, st.event = .poll w →
          st.pre.config.Disconnects toy st.pre.iterator w →
          st.pre.iterator + 1 = st.pre.config.size) := by
  have hpolls : ∀ e ∈ [Toy.waits, Toy.hangsUp], ∃ w, e = .poll w := by
    simp [Toy.waits, Toy.hangsUp]
  obtain ⟨c, r, steps, s, hreach, -, -, hpass, -⟩ :=
    Toy.exists_pass [0, 1] hpolls (by decide +kernel)
  exact ⟨c, steps, s, hpass, passes_serve_iff toy hreach hpass⟩

/-- The first of two clients leaves, and the second is not polled. -/
theorem not_passes_serve_toy :
    ¬ ∀ c, (server toy).Reachable (Config.init []) c → ∀ steps s, Manager.Pass toy c steps s →
      ∀ k r, c.row? k = some r → (Manager.served steps).count r.conn = 1 := by
  have hpolls : ∀ e ∈ [Toy.hangsUp], ∃ w, e = .poll w := by simp [Toy.hangsUp]
  obtain ⟨c, r, steps, s, hreach, hr, hconn, hpass, hserved⟩ :=
    Toy.exists_pass [0] hpolls (by decide +kernel)
  intro hall
  have hcount := hall c hreach steps s hpass 1 r hr
  rw [hserved, hconn] at hcount
  exact absurd hcount (by decide)

end OpenSimp
