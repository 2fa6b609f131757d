import OpenSimp.Room.Basic

/-!
# What the server's functions do to a room

One equation for each function of the server: run on the layout of a room, it returns, and leaves
the layout of the room and the effects the equation names. These equations are all the later
modules use of the functions.
-/

namespace OpenSimp

open Bytes FaultState ServerNetwork

/-- More effects. -/
def Machine.emit (m : Machine) (acts : List Act) : Machine := { m with acts := m.acts ++ acts }

@[simp] lemma Machine.emit_nil (m : Machine) : m.emit [] = m := by simp [emit]

@[simp] lemma Machine.emit_emit (m : Machine) (as bs : List Act) :
    (m.emit as).emit bs = m.emit (as ++ bs) := by simp [emit]

@[simp] lemma Room.emit_during (R : Room) (acts as : List Act) :
    (R.during acts).emit as = R.during (acts ++ as) := rfl

/-! ### Vectors and sockets -/

variable {m : Machine}

lemma Column.index_run {α : Type} {c : Column α} {i : ℕ} {a : α} (hgone : m.gone = none)
    (h : (c.get m.server)[i]? = some a) : (c.index i).run m = .ok (a, m) := by
  cases m
  subst hgone
  simp [Column.index, Prog.run, Prog.exec, Except.mapError, h]

lemma Column.elements_run {α : Type} {c : Column α} (hgone : m.gone = none) :
    c.elements.run m = .ok (c.get m.server, m) := by
  cases m
  subst hgone
  simp [Column.elements, Prog.run, Prog.exec, Except.mapError]

lemma Column.assign_run {α : Type} {c : Column α} {i : ℕ} {a : α} (hgone : m.gone = none)
    (h : i < (c.get m.server).length) :
    (c.assign i a).run m =
      .ok ((), { m with server := c.put ((c.get m.server).set i a) m.server }) := by
  simp [Column.assign, Prog.run, Prog.exec, Except.mapError, h, hgone]

lemma Column.erase_run {α : Type} {c : Column α} {i : ℕ} (hgone : m.gone = none)
    (h : i < (c.get m.server).length) :
    (c.erase i).run m = .ok ((), { m with
      server := c.put ((c.get m.server).eraseIdx i) m.server
      owners := fun v => if v = c.name then (m.owners v).eraseIdx i else m.owners v }) := by
  simp [Column.erase, Prog.run, Prog.exec, Except.mapError, h, hgone]

lemma deref_run {p : Sock} (hlive : m.live p = true) : (deref p).run m = .ok ((), m) := by
  simp [deref, Prog.run, Prog.exec, Except.mapError, hlive]

lemma remote_run {w : World} {p : Sock} (hlive : m.live p = true) :
    (remote w p).run m = .ok (w.peer p, m) := by
  rw [remote, run_bind_ok (deref_run hlive), run_pure]

lemma delete_run (p : Sock) :
    (delete p).run m = .ok ((), { m with live := fun q => if q = p then false else m.live q }) :=
  rfl

lemma act_run (a : Act) : (act a).run m = .ok ((), m.emit [a]) := rfl

lemma socketSend_run {w : World} {p : Sock} {packet : Packet} (hlive : m.live p = true) :
    (socketSend w p packet).run m = .ok (w.sendStatus p packet, m.emit [.sent p packet]) := by
  rw [socketSend, run_bind_ok (deref_run hlive), run_bind_ok (act_run _), run_pure]

/-! ### Sending -/

/-- Whether `send` returns `true`. -/
def World.sends (w : World) (p : Sock) (packet : Packet) : Bool :=
  decide (w.sendStatus p packet = .done)

lemma send_run {w : World} {data : Bytes} {p : Sock} (hlive : m.live p = true) :
    (send w data p).run m = .ok (w.sends p (.sealed (cstr data)),
      m.emit [.sent p (.sealed (cstr data))]) := by
  rw [send, run_bind_ok (socketSend_run hlive), run_ite]
  split_ifs with hs
  · rw [run_bind_ok (deref_run (by exact hlive)), run_pure]
    simp [World.sends, hs]
  · rw [run_pure]
    simp [World.sends, not_not.mp hs]

lemma sendUnencrypted_run {w : World} {data : Bytes} {p : Sock} (hlive : m.live p = true) :
    (sendUnencrypted w data p).run m = .ok (w.sends p (.clear data),
      m.emit [.sent p (.clear data)]) := by
  rw [sendUnencrypted, run_bind_ok (socketSend_run hlive), run_ite]
  split_ifs with hs
  · rw [run_bind_ok (deref_run (by exact hlive)), run_pure]
    simp [World.sends, hs]
  · rw [run_pure]
    simp [World.sends, not_not.mp hs]

/-- The packet of a direct reply. -/
def directPacket (str : Bytes) : Packet := .sealed (cstr (ascii "6" ++ [separator] ++ str))

lemma sendString_run {w : World} {str : Bytes} {p : Sock} (hlive : m.live p = true) :
    (sendString w str p).run m = .ok ((), m.emit [.sent p (directPacket str)]) := by
  rw [sendString, run_bind_ok (send_run hlive), run_pure]
  rfl

/-! ### Broadcasting -/

/-- The rows a broadcast that excludes one endpoint reaches. -/
def recipients (w : World) (rows : List Row) (exclude : Endpoint) : List Row :=
  rows.filter fun r => r.status = .done ∧ w.peer r.sock ≠ exclude

/-- The effects of `broadcast`. -/
def broadcastActs (w : World) (rows : List Row) (data : Bytes) (exclude : Endpoint) : List Act :=
  .broadcast (cstr data) ::
    (recipients w rows exclude).map fun r => .sent r.sock (.sealed (cstr data))

/-- The two vectors `broadcast` reads are the columns of `rows`, all of whose sockets are live. -/
structure Machine.Shows (m : Machine) (rows : List Row) : Prop where
  sock : m.server.clientArray = rows.map Row.sock
  status : m.server.clientAuthenticatedArray = rows.map (·.status)
  gone : m.gone = none
  live : ∀ r ∈ rows, m.live r.sock = true

lemma Machine.Shows.emit {rows : List Row} (h : m.Shows rows) (as : List Act) :
    (m.emit as).Shows rows := ⟨h.sock, h.status, h.gone, h.live⟩

lemma broadcastTo_run (w : World) {rows : List Row} (data : Bytes) (exclude : Endpoint)
    (h : m.Shows rows) {k : ℕ} {r : Row} (hr : rows[k]? = some r) (succeed : Bool) :
    ∃ succeed', (broadcastTo w data exclude succeed k).run m = .ok (succeed', m.emit
      ((recipients w [r] exclude).map fun r => .sent r.sock (.sealed (cstr data)))) := by
  have hlive : m.live r.sock = true := h.live r (List.mem_of_getElem? hr)
  have hsock : (clientArray.get m.server)[k]? = some r.sock := by
    simp [clientArray, h.sock, hr]
  have hstatus : (clientAuthenticatedArray.get m.server)[k]? = some r.status := by
    simp [clientAuthenticatedArray, h.status, hr]
  have hpeer : (w.peer r.sock).address ≠ exclude.address ∨ (w.peer r.sock).port ≠ exclude.port ↔
      w.peer r.sock ≠ exclude := by
    rw [ne_eq, ne_eq, ne_eq, Endpoint.mk.injEq, not_and_or]
  rw [broadcastTo, run_bind_ok (Column.index_run h.gone hsock), run_bind_ok (remote_run hlive),
    run_ite]
  by_cases hp : w.peer r.sock ≠ exclude
  · rw [if_pos (hpeer.mpr hp), run_bind_ok (Column.index_run h.gone hstatus), run_ite]
    by_cases hs : r.status = .done
    · rw [if_pos hs, send_run hlive]
      exact ⟨w.sends r.sock (.sealed (cstr data)), by simp [recipients, hp, hs]⟩
    · rw [if_neg hs, run_pure]
      exact ⟨succeed, by simp [recipients, hs]⟩
  · rw [if_neg (hpeer.not.mpr hp), run_pure]
    exact ⟨succeed, by simp [recipients, not_not.mp hp]⟩

/-- `broadcast` over the rows from the `k`-th on. -/
lemma broadcastFrom_run (w : World) (data : Bytes) (exclude : Endpoint) (pre suf : List Row)
    (h : m.Shows (pre ++ suf)) (succeed : Bool) :
    ∃ succeed', ((List.range' pre.length suf.length).foldlM
        (broadcastTo w data exclude) succeed).run m =
      .ok (succeed', m.emit
        ((recipients w suf exclude).map fun r => .sent r.sock (.sealed (cstr data)))) := by
  induction suf generalizing pre m succeed with
  | nil => exact ⟨succeed, by rw [recipients, List.filter_nil, List.map_nil, Machine.emit_nil]; rfl⟩
  | cons r suf ih =>
    obtain ⟨b, hb⟩ := broadcastTo_run w data exclude h
      (k := pre.length) (r := r) (by simp) succeed
    rw [List.length_cons, List.range'_succ, List.foldlM_cons, run_bind_ok hb]
    have hshow : (m.emit ((recipients w [r] exclude).map fun r =>
        .sent r.sock (.sealed (cstr data)))).Shows ((pre ++ [r]) ++ suf) := by
      rw [List.append_assoc]
      exact h.emit _
    obtain ⟨b', hb'⟩ := ih (pre ++ [r]) hshow b
    rw [List.length_append, List.length_singleton] at hb'
    refine ⟨b', ?_⟩
    rw [hb', Machine.emit_emit, ← List.map_append, recipients, recipients, recipients,
      ← List.filter_append]
    rfl

lemma broadcast_run (w : World) {rows : List Row} (data : Bytes) (exclude : Endpoint)
    (h : m.Shows rows) :
    ∃ succeed, (broadcast w data exclude).run m =
      .ok (succeed, m.emit (broadcastActs w rows data exclude)) := by
  obtain ⟨b, hb⟩ := broadcastFrom_run w data exclude [] rows
    (h.emit [.broadcast (cstr data)]) false
  refine ⟨b, ?_⟩
  have hsize : (clientArray.size).run (m.emit [.broadcast (cstr data)]) =
      .ok (rows.length, m.emit [.broadcast (cstr data)]) := by
    have : (m.emit [.broadcast (cstr data)]).server.clientArray.length = rows.length := by
      rw [(h.emit _).sock, List.length_map]
    rw [← this]
    rfl
  rw [List.length_nil] at hb
  rw [broadcast, run_bind_ok (act_run _), run_bind_ok hsize, List.range_eq_range', hb,
    Machine.emit_emit]
  rfl

/-! ### The columns of a room -/

section Columns

variable {R : Room} {i : ℕ} {r : Row} (hr : R.rows[i]? = some r) (acts : List Act)

include hr

lemma clientArray_run :
    (clientArray.index i).run (R.during acts) = .ok (r.sock, R.during acts) :=
  Column.index_run rfl (by simp [clientArray, Room.during, Room.server, hr])

lemma clientidArray_run :
    (clientidArray.index i).run (R.during acts) = .ok (r.clientid, R.during acts) :=
  Column.index_run rfl (by simp [clientidArray, Room.during, Room.server, hr])

lemma clientAuthenticatedArray_run :
    (clientAuthenticatedArray.index i).run (R.during acts) = .ok (r.status, R.during acts) :=
  Column.index_run rfl (by simp [clientAuthenticatedArray, Room.during, Room.server, hr])

lemma clientMessageInterval_run :
    (clientMessageInterval.index i).run (R.during acts) = .ok (r.interval, R.during acts) :=
  Column.index_run rfl (by simp [clientMessageInterval, Room.during, Room.server, hr])

lemma Room.live_during : (R.during acts).live r.sock = true :=
  R.live_of_mem (List.mem_of_getElem? hr)

end Columns

lemma clientidArray_elements_run (R : Room) (acts : List Act) :
    (clientidArray.elements).run (R.during acts) =
      .ok (R.rows.map (·.clientid), R.during acts) :=
  Column.elements_run rfl

lemma Room.shows_during (R : Room) (acts : List Act) : (R.during acts).Shows R.rows :=
  ⟨rfl, rfl, rfl, fun _ hr => R.live_of_mem hr⟩

/-! ### Disconnecting -/

/-- The leave packet of row `i`, which is `r`. -/
def Room.leaveMessage (R : Room) (i : ℕ) (r : Row) : Bytes :=
  ascii "2" ++ [separator] ++ r.clientid ++
    rosterText ((R.rows.map (·.clientid)).eraseIdx i)

/-- The effects of `disconnectClient`. -/
def Room.disconnectActs (R : Room) (w : World) (i : ℕ) (r : Row) (reason : DisconnectReason) :
    List Act :=
  broadcastActs w R.rows (R.leaveMessage i r) (w.peer r.sock) ++ [.disconnected i reason]

lemma logLeave_run {R : Room} {i : ℕ} {r : Row} (hr : R.rows[i]? = some r) (acts : List Act) :
    (logLeave r.sock i).run (R.during acts) = .ok ((), R.during acts) := by
  rw [logLeave, run_bind_ok (clientidArray_run hr acts), run_ite]
  split_ifs
  · rw [run_bind_ok (clientidArray_run hr acts), run_pure]
  · exact deref_run (R.live_during hr acts)

lemma logReason_run {R : Room} {i : ℕ} {r : Row} (hr : R.rows[i]? = some r)
    (reason : DisconnectReason) (acts : List Act) :
    (logReason r.sock reason).run (R.during acts) = .ok ((), R.during acts) := by
  cases reason <;> first | rfl | exact deref_run (R.live_during hr acts)

/-- A room whose row `i` has lost its alias and nothing else. -/
def Room.nameless (R : Room) (i : ℕ) (acts : List Act) : Machine :=
  { R.during acts with
    server := { R.server with clientidArray := (R.rows.map (·.clientid)).eraseIdx i }
    owners := fun v => if v = .clientidArray then (R.owners v).eraseIdx i else R.owners v }

lemma Room.shows_nameless (R : Room) (i : ℕ) (acts : List Act) :
    (R.nameless i acts).Shows R.rows :=
  ⟨rfl, rfl, rfl, fun _ hr => R.live_of_mem hr⟩

lemma announceLeave_run {R : Room} {i : ℕ} {r : Row} (hr : R.rows[i]? = some r) (w : World)
    (acts : List Act) :
    (announceLeave w r.sock i).run (R.during acts) = .ok ((), R.nameless i
      (acts ++ broadcastActs w R.rows (R.leaveMessage i r) (w.peer r.sock))) := by
  have hlt : i < R.rows.length := (List.getElem?_eq_some_iff.mp hr).1
  have herase : (clientidArray.erase i).run (R.during acts) = .ok ((), R.nameless i acts) :=
    Column.erase_run rfl (by simpa [clientidArray, Room.during, Room.server] using hlt)
  have helements : (clientidArray.elements).run (R.nameless i acts) =
      .ok ((R.rows.map (·.clientid)).eraseIdx i, R.nameless i acts) := Column.elements_run rfl
  have hlive : (R.nameless i acts).live r.sock = true := R.live_during hr acts
  obtain ⟨b, hb⟩ := broadcast_run w (R.leaveMessage i r) (w.peer r.sock)
    (R.shows_nameless i acts)
  rw [announceLeave, run_bind_ok (clientidArray_run hr acts), run_bind_ok herase,
    run_bind_ok helements, run_bind_ok (remote_run hlive)]
  exact (run_bind_ok hb).trans (run_pure _ _)

/-- The same with the key of row `i` removed, when it had one. -/
def Room.keyless (R : Room) (i : ℕ) (r : Row) (acts : List Act) : Machine :=
  { R.nameless i acts with
    server := { (R.nameless i acts).server with keys := (R.disconnect i r).keys } }

lemma dropKey_run {R : Room} {i : ℕ} {r : Row} (hr : R.rows[i]? = some r) (acts : List Act) :
    (dropKey r.sock i).run (R.nameless i acts) = .ok ((), R.keyless i r acts) := by
  have hstatus : (clientAuthenticatedArray.index i).run (R.nameless i acts) =
      .ok (r.status, R.nameless i acts) :=
    Column.index_run rfl (by simp [clientAuthenticatedArray, Room.nameless, Room.server, hr])
  rw [dropKey, run_bind_ok hstatus, run_ite, Room.keyless, Room.disconnect]
  split_ifs <;> rfl

lemma releaseRow_run {R : Room} {i : ℕ} {r : Row} (hr : R.rows[i]? = some r) (acts : List Act) :
    (releaseRow r.sock i).run (R.keyless i r acts) = .ok ((), (R.disconnect i r).during acts) := by
  have hlt : i < R.rows.length := (List.getElem?_eq_some_iff.mp hr).1
  have hlive : (R.keyless i r acts).live r.sock = true := R.live_during hr acts
  have h₁ : i < (clientArray.get (R.keyless i r acts).server).length := by
    simpa [clientArray, Room.keyless, Room.nameless, Room.server] using hlt
  have h₂ : i < (clientOpArray.get (R.keyless i r acts).server).length := by
    simpa [clientOpArray, Room.keyless, Room.nameless, Room.server] using hlt
  have h₃ : i < (clientAuthenticatedArray.get (R.keyless i r acts).server).length := by
    simpa [clientAuthenticatedArray, Room.keyless, Room.nameless, Room.server] using hlt
  have h₄ : i < (clientMessageInterval.get (R.keyless i r acts).server).length := by
    simpa [clientMessageInterval, Room.keyless, Room.nameless, Room.server] using hlt
  rw [releaseRow, run_bind_ok (deref_run hlive), run_bind_ok (delete_run _),
    run_bind_ok (Column.erase_run rfl (by exact h₁)),
    run_bind_ok (Column.erase_run rfl (by exact h₂)),
    run_bind_ok (Column.erase_run rfl (by exact h₃)), Column.erase_run rfl (by exact h₄)]
  have howners : (R.disconnect i r).owners = fun v => (R.owners v).eraseIdx i := by
    funext v
    simp [Room.owners, Room.disconnect, List.eraseIdx_map]
  simp only [Room.during, Room.live_disconnect hr, howners]
  simp [Room.keyless, Room.nameless, Room.during, Room.server, Room.disconnect, clientArray,
    clientOpArray, clientAuthenticatedArray, clientMessageInterval, List.eraseIdx_map]
  funext v
  cases v <;> rfl

/-- `disconnectClient` erases row `i` from the room, and no vector is used at `i` after that. -/
lemma disconnectClient_run {R : Room} {i : ℕ} {r : Row} (hr : R.rows[i]? = some r) (w : World)
    (reason : DisconnectReason) (acts : List Act) :
    (disconnectClient w r.sock i reason).run (R.during acts) =
      .ok ((), (R.disconnect i r).after i false (acts ++ R.disconnectActs w i r reason)) := by
  rw [disconnectClient, run_bind_ok (logLeave_run hr acts),
    run_bind_ok (logReason_run hr reason acts), run_bind_ok (announceLeave_run hr w acts),
    run_bind_ok (dropKey_run hr _), run_bind_ok (releaseRow_run hr _), run_bind_ok (act_run _),
    Room.emit_during, List.append_assoc]
  rfl

end OpenSimp
