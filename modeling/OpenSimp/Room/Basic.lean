import OpenSimp.Server.System
import OpenSimp.Lib.Columns

/-!
# The room: the server's clients as a table

A `Room` has one row for each client where the server has one entry in each of five vectors, and
its rows are known to be different connections on different sockets. `Room.config` lays a room out
as the server does. The code only ever erases a row of the room or changes the profile of one, as
the equations of `Room.Effects` show.
-/

namespace OpenSimp

/-- What a client can change about its row. -/
structure Profile where
  clientid : Bytes
  op : Bool
  status : AuthStatus
  interval : ℕ
  deriving DecidableEq

/-- A client: the connection's serial number, its socket and its profile. -/
structure Row extends Profile where
  conn : ℕ
  sock : Sock
  deriving DecidableEq

/-- The row `connectClients` adds. -/
def Row.fresh (conn : ℕ) (sock : Sock) (now : ℕ) : Row where
  conn := conn
  sock := sock
  clientid := sentinel
  op := false
  status := .undone
  interval := now

def Row.update (f : Profile → Profile) (r : Row) : Row := { r with toProfile := f r.toProfile }

lemma Row.map_sock_modify (rows : List Row) (i : ℕ) (f : Profile → Profile) :
    (rows.modify i (Row.update f)).map Row.sock = rows.map Row.sock :=
  List.map_modify_of_eq fun _ => rfl

lemma Row.map_conn_modify (rows : List Row) (i : ℕ) (f : Profile → Profile) :
    (rows.modify i (Row.update f)).map Row.conn = rows.map Row.conn :=
  List.map_modify_of_eq fun _ => rfl

/-- The row at position `k` of the five vectors. -/
def Config.row? (c : Config) (k : ℕ) : Option Row := do
  let conn ← (c.owners .clientArray)[k]?
  let sock ← c.server.clientArray[k]?
  let clientid ← c.server.clientidArray[k]?
  let op ← c.server.clientOpArray[k]?
  let status ← c.server.clientAuthenticatedArray[k]?
  let interval ← c.server.clientMessageInterval[k]?
  pure { conn, sock, clientid, op, status, interval }

structure Room where
  rows : List Row
  accepted : ℕ
  keys : Sock → Option ℤ
  userdata : Bytes
  nodup_sock : (rows.map Row.sock).Nodup
  nodup_conn : (rows.map Row.conn).Nodup
  conn_lt : ∀ r ∈ rows, r.conn < accepted

namespace Room

variable (R : Room)

/-! ### The server's layout of a room -/

def server : Server where
  clientArray := R.rows.map Row.sock
  clientidArray := R.rows.map (·.clientid)
  clientOpArray := R.rows.map (·.op)
  clientAuthenticatedArray := R.rows.map (·.status)
  clientMessageInterval := R.rows.map (·.interval)
  keys := R.keys
  userdata := R.userdata

def live (p : Sock) : Bool := decide (p ∈ R.rows.map Row.sock)

def owners (_ : VectorName) : List ℕ := R.rows.map Row.conn

def config : Config where
  server := R.server
  live := R.live
  owners := R.owners
  accepted := R.accepted

/-- The run-time state in the course of an event, before any row was erased. -/
def during (acts : List Act) : Machine where
  server := R.server
  live := R.live
  owners := R.owners
  accepted := R.accepted
  gone := none
  useAfterFree := false
  staleIndex := false
  acts := acts

/-- The run-time state after row `i` was erased. -/
def after (i : ℕ) (useAfterFree : Bool) (acts : List Act) : Machine where
  server := R.server
  live := R.live
  owners := R.owners
  accepted := R.accepted
  gone := some i
  useAfterFree := useAfterFree
  staleIndex := false
  acts := acts

@[simp] lemma config_machine : R.config.machine = R.during [] := rfl

@[simp] lemma config_row? (k : ℕ) : R.config.row? k = R.rows[k]? := by
  cases hr : R.rows[k]? <;> simp [Config.row?, config, server, owners, hr]

lemma config_size : R.config.size = R.rows.length := by simp [Config.size, config, server]

/-! ### Changing a room -/

/-- The room before the first connection. -/
def init (userdata : Bytes) : Room where
  rows := []
  accepted := 0
  keys := fun _ => none
  userdata := userdata
  nodup_sock := by simp
  nodup_conn := by simp
  conn_lt := by simp

@[simp] lemma init_config (userdata : Bytes) : (init userdata).config = Config.init userdata := by
  have hlive : (init userdata).live = fun _ => false := by
    funext p
    simp [live, init]
  simp only [config, hlive]
  rfl

/-- A new client on the socket `p`. -/
def connect (p : Sock) (now : ℕ) (hp : R.live p = false) : Room where
  rows := R.rows ++ [Row.fresh R.accepted p now]
  accepted := R.accepted + 1
  keys := R.keys
  userdata := R.userdata
  nodup_sock := by
    have hp' : p ∉ R.rows.map Row.sock := by simpa [live] using hp
    rw [List.map_append, List.nodup_append]
    refine ⟨R.nodup_sock, by simp, ?_⟩
    intro q hq q' hq'
    rw [List.map_singleton, List.mem_singleton] at hq'
    subst hq'
    rintro rfl
    exact hp' hq
  nodup_conn := by
    rw [List.map_append, List.nodup_append]
    refine ⟨R.nodup_conn, by simp, ?_⟩
    intro n hn n' hn'
    obtain ⟨r, hr, rfl⟩ := List.mem_map.mp hn
    rw [List.map_singleton, List.mem_singleton] at hn'
    subst hn'
    exact (R.conn_lt r hr).ne
  conn_lt := by
    intro r hr
    rcases List.mem_append.mp hr with hr | hr
    · exact Nat.lt_succ_of_lt (R.conn_lt r hr)
    · rw [List.mem_singleton.mp hr]
      exact Nat.lt_succ_self _

/-- Row `i` with its profile changed by `f`. -/
def modify (i : ℕ) (f : Profile → Profile) : Room where
  rows := R.rows.modify i (Row.update f)
  accepted := R.accepted
  keys := R.keys
  userdata := R.userdata
  nodup_sock := by
    rw [Row.map_sock_modify]
    exact R.nodup_sock
  nodup_conn := by
    rw [Row.map_conn_modify]
    exact R.nodup_conn
  conn_lt := by
    intro r hr
    have hmem : r.conn ∈ (R.rows.modify i (Row.update f)).map Row.conn := List.mem_map_of_mem hr
    rw [Row.map_conn_modify] at hmem
    obtain ⟨r', hr', heq⟩ := List.mem_map.mp hmem
    exact heq ▸ R.conn_lt r' hr'

/-- Row `i`, which is `r`, erased, with its key when it was `Done`. -/
def disconnect (i : ℕ) (r : Row) : Room where
  rows := R.rows.eraseIdx i
  accepted := R.accepted
  keys := if r.status = .done then fun q => if q = r.sock then none else R.keys q else R.keys
  userdata := R.userdata
  nodup_sock := by
    rw [← List.eraseIdx_map]
    exact R.nodup_sock.eraseIdx i
  nodup_conn := by
    rw [← List.eraseIdx_map]
    exact R.nodup_conn.eraseIdx i
  conn_lt := fun r hr => R.conn_lt r (List.mem_of_mem_eraseIdx hr)

/-- `unordered_map::insert` of a key for the socket `p`. -/
def insertKey (p : Sock) (n : ℤ) : Room where
  rows := R.rows
  accepted := R.accepted
  keys := fun q => if q = p then (R.keys q).or (some n) else R.keys q
  userdata := R.userdata
  nodup_sock := R.nodup_sock
  nodup_conn := R.nodup_conn
  conn_lt := R.conn_lt

/-- A new text of `userdata.yml`. -/
def withUserdata (text : Bytes) : Room where
  rows := R.rows
  accepted := R.accepted
  keys := R.keys
  userdata := text
  nodup_sock := R.nodup_sock
  nodup_conn := R.nodup_conn
  conn_lt := R.conn_lt

variable {R}

lemma getElem?_modify_self {i : ℕ} {r : Row} {f : Profile → Profile} (hr : R.rows[i]? = some r) :
    (R.modify i f).rows[i]? = some (r.update f) := by
  simp [modify, hr]

lemma live_of_mem {r : Row} (hr : r ∈ R.rows) : R.live r.sock = true := by
  simpa [live] using ⟨r, hr, rfl⟩

/-- A `Done` client is on the socket `p`. -/
def DoneOn (R : Room) (p : Sock) : Prop := ∃ r ∈ R.rows, r.sock = p ∧ r.status = .done

lemma doneOn_self {i : ℕ} {r : Row} (hr : R.rows[i]? = some r) :
    R.DoneOn r.sock ↔ r.status = .done := by
  constructor
  · rintro ⟨r', hr', hsock, hdone⟩
    rwa [List.eq_of_map_nodup R.nodup_sock (List.mem_of_getElem? hr) hr' hsock.symm]
  · intro hdone
    exact ⟨r, List.mem_of_getElem? hr, rfl, hdone⟩

/-- The rows of the server's layout. -/
lemma exists_config_row? {P : Row → Prop} :
    (∃ k r, R.config.row? k = some r ∧ P r) ↔ ∃ r ∈ R.rows, P r := by
  simp only [config_row?, List.mem_iff_getElem?]
  constructor
  · rintro ⟨k, r, hk, h⟩
    exact ⟨r, ⟨k, hk⟩, h⟩
  · rintro ⟨r, ⟨k, hk⟩, h⟩
    exact ⟨k, r, hk, h⟩

lemma live_modify (i : ℕ) (f : Profile → Profile) : (R.modify i f).live = R.live := by
  funext p
  simp only [live, modify, Row.map_sock_modify]

lemma owners_modify (i : ℕ) (f : Profile → Profile) : (R.modify i f).owners = R.owners := by
  funext v
  simp only [owners, modify, Row.map_conn_modify]

/-- Deleting the socket of row `i` leaves the sockets of the other rows. -/
lemma live_disconnect {i : ℕ} {r : Row} (hr : R.rows[i]? = some r) :
    (R.disconnect i r).live = fun q => if q = r.sock then false else R.live q := by
  funext q
  have hmem := List.mem_eraseIdx_iff_of_nodup R.nodup_sock (i := i) (a := r.sock) (b := q)
    (by simp [hr])
  rw [List.eraseIdx_map] at hmem
  simp only [live, disconnect, hmem]
  split_ifs with hq
  · simp [hq]
  · simp [hq]

end Room

end OpenSimp
