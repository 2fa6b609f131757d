import OpenSimp.Room.Outcome
import OpenSimp.Room.System
import OpenSimp.Toy.Library

/-!
# The client table

The five vectors stay one table: they have the same length, every position of them belongs to one
connection, and an event appends a row, erases its own row or changes its own row.
-/

namespace OpenSimp

open Bytes System

namespace Config

/-- The number of entries of a vector. -/
def length (c : Config) : VectorName → ℕ
  | .clientArray => c.server.clientArray.length
  | .clientidArray => c.server.clientidArray.length
  | .clientOpArray => c.server.clientOpArray.length
  | .clientAuthenticatedArray => c.server.clientAuthenticatedArray.length
  | .clientMessageInterval => c.server.clientMessageInterval.length

/-- The five vectors have the same length, and position `k` of all five belongs to the same
connection, to which no other position belongs. -/
structure Aligned (c : Config) : Prop where
  length_eq : ∀ v, c.length v = c.size
  owners_length : ∀ v, (c.owners v).length = c.length v
  owners_eq : ∀ v, c.owners v = c.owners .clientArray
  nodup : (c.owners .clientArray).Nodup

/-- One row for a new connection is appended to the five vectors. -/
structure Appends (c c' : Config) (p : Sock) (now : ℕ) : Prop where
  live : c.live p = false
  clientArray : c'.server.clientArray = c.server.clientArray ++ [p]
  clientidArray : c'.server.clientidArray = c.server.clientidArray ++ [sentinel]
  clientOpArray : c'.server.clientOpArray = c.server.clientOpArray ++ [false]
  clientAuthenticatedArray :
    c'.server.clientAuthenticatedArray = c.server.clientAuthenticatedArray ++ [.undone]
  clientMessageInterval :
    c'.server.clientMessageInterval = c.server.clientMessageInterval ++ [now]
  owners : ∀ v, c'.owners v = c.owners v ++ [c.accepted]
  fresh : ∀ v, c.accepted ∉ c.owners v

/-- Exactly row `i` is removed from the five vectors. -/
structure Removes (c c' : Config) (i : ℕ) : Prop where
  clientArray : c'.server.clientArray = c.server.clientArray.eraseIdx i
  clientidArray : c'.server.clientidArray = c.server.clientidArray.eraseIdx i
  clientOpArray : c'.server.clientOpArray = c.server.clientOpArray.eraseIdx i
  clientAuthenticatedArray :
    c'.server.clientAuthenticatedArray = c.server.clientAuthenticatedArray.eraseIdx i
  clientMessageInterval :
    c'.server.clientMessageInterval = c.server.clientMessageInterval.eraseIdx i
  owners : ∀ v, c'.owners v = (c.owners v).eraseIdx i

/-- Two lists of the same length that differ at most at `i`. -/
def SameBut {α : Type} (i : ℕ) (l l' : List α) : Prop :=
  l'.length = l.length ∧ ∀ k, k ≠ i → l'[k]? = l[k]?

/-- Row `i` is the only one changed, and it stays the same connection's on the same socket. -/
structure ChangesOnly (c c' : Config) (i : ℕ) : Prop where
  clientArray : c'.server.clientArray = c.server.clientArray
  clientidArray : SameBut i c.server.clientidArray c'.server.clientidArray
  clientOpArray : SameBut i c.server.clientOpArray c'.server.clientOpArray
  clientAuthenticatedArray :
    SameBut i c.server.clientAuthenticatedArray c'.server.clientAuthenticatedArray
  clientMessageInterval :
    SameBut i c.server.clientMessageInterval c'.server.clientMessageInterval
  owners : c'.owners = c.owners

/-- What an event may do to the table. -/
def Frames (c c' : Config) : Event → Prop
  | .accept p w => if w.status = .done then c.Appends c' p w.now else c' = c
  | .receive i _ => c.Removes c' i ∨ c.ChangesOnly c' i

end Config

namespace Room

variable {R R' : Room} {L : Library} {e : Event} {o : Obs} {i : ℕ}

lemma aligned_config (R : Room) : R.config.Aligned where
  length_eq := by
    intro v
    cases v <;> simp [Config.length, Config.size, config, Room.server]
  owners_length := by
    intro v
    cases v <;> simp [Config.length, config, owners, Room.server]
  owners_eq := fun _ => rfl
  nodup := R.nodup_conn

lemma appends_connect {p : Sock} (now : ℕ) (hp : R.live p = false) :
    R.config.Appends (R.connect p now hp).config p now where
  live := hp
  clientArray := List.map_append
  clientidArray := List.map_append
  clientOpArray := List.map_append
  clientAuthenticatedArray := List.map_append
  clientMessageInterval := List.map_append
  owners := fun _ => List.map_append
  fresh := by
    intro v hmem
    obtain ⟨r, hr, heq⟩ := List.mem_map.mp hmem
    exact absurd heq (R.conn_lt r hr).ne

lemma removes_of_rows (h : R'.rows = R.rows.eraseIdx i) : R.config.Removes R'.config i where
  clientArray := by simp [config, Room.server, h, List.eraseIdx_map]
  clientidArray := by simp [config, Room.server, h, List.eraseIdx_map]
  clientOpArray := by simp [config, Room.server, h, List.eraseIdx_map]
  clientAuthenticatedArray := by simp [config, Room.server, h, List.eraseIdx_map]
  clientMessageInterval := by simp [config, Room.server, h, List.eraseIdx_map]
  owners := by
    intro v
    simp [config, owners, h, List.eraseIdx_map]

lemma sameBut_map_modify {α : Type} (rows : List Row) (i : ℕ) (f : Row → Row) (g : Row → α) :
    Config.SameBut i (rows.map g) ((rows.modify i f).map g) := by
  refine ⟨by simp, fun k hk => ?_⟩
  rw [List.getElem?_map, List.getElem?_map, List.getElem?_modify_ne _ _ (Ne.symm hk)]

lemma changesOnly_of_rows {f : Profile → Profile} (h : R'.rows = R.rows.modify i (Row.update f)) :
    R.config.ChangesOnly R'.config i where
  clientArray := by simp only [config, Room.server, h, Row.map_sock_modify]
  clientidArray := by
    simpa only [config, Room.server, h] using sameBut_map_modify _ _ _ _
  clientOpArray := by
    simpa only [config, Room.server, h] using sameBut_map_modify _ _ _ _
  clientAuthenticatedArray := by
    simpa only [config, Room.server, h] using sameBut_map_modify _ _ _ _
  clientMessageInterval := by
    simpa only [config, Room.server, h] using sameBut_map_modify _ _ _ _
  owners := by
    funext v
    simp only [config, owners, h, Row.map_conn_modify]

/-- A step of the room appends, erases or changes the row it is about. -/
lemma Step.frames (h : Room.Step L R e o R') :
    R.config.Frames R'.config e ∧ o.staleIndex = false := by
  cases h with
  | accepted hp hstatus =>
    rw [Config.Frames, if_pos hstatus]
    exact ⟨appends_connect _ hp, rfl⟩
  | declined hp hstatus =>
    rw [Config.Frames, if_neg hstatus]
    exact ⟨rfl, rfl⟩
  | served hr hserve =>
    obtain ⟨_, -, hout⟩ := Room.serve_outcome hserve
    rcases hout.changes_or_erases with ⟨f, h⟩ | h
    · exact ⟨.inr (changesOnly_of_rows h.rows), rfl⟩
    · exact ⟨.inl (removes_of_rows h.rows), rfl⟩

end Room

/-- In every run the five vectors are one table, of which every event appends, erases or changes
one row; and once an event has erased its row it does not use the row's index again. -/
theorem rows_aligned_and_framed (L : Library) (userdata : Bytes)
    {steps : List (Step Config Event Obs)} {c : Config}
    (h : (server L).Run (Config.init userdata) steps c) :
    c.Aligned ∧ ∀ st ∈ steps, st.post.Aligned ∧ st.pre.Frames st.post st.event ∧
      st.obs.staleIndex = false := by
  obtain ⟨rsteps, R, hrun, rfl, rfl⟩ := run_lift h
  refine ⟨R.aligned_config, ?_⟩
  intro st hst
  obtain ⟨rst, hrst, rfl⟩ := List.mem_map.mp hst
  exact ⟨rst.post.aligned_config, (hrun.of_mem hrst).2.frames⟩

/-- Two clients connect, the first logs in and leaves, and the second one's row moves up. -/
def Toy.comingAndGoing : List Event :=
  [joins 1, joins 2, polls 0 (logsIn (ascii "alice") (ascii "pw")) 5, leaves 0]

theorem rows_aligned_and_framed_toy :
    ∃ steps c, play toy (Config.init []) Toy.comingAndGoing = some (steps, c) ∧
      c.server.clientArray = [2] ∧ c.Aligned ∧
      ∀ st ∈ steps, st.post.Aligned ∧ st.pre.Frames st.post st.event ∧
        st.obs.staleIndex = false := by
  have hsome : (play toy (Config.init []) Toy.comingAndGoing).map (·.2.server.clientArray) =
      some [2] := by decide +kernel
  obtain ⟨⟨steps, c⟩, hplay, hsocks⟩ := Option.map_eq_some_iff.mp hsome
  exact ⟨steps, c, hplay, hsocks, rows_aligned_and_framed toy [] (run_of_play hplay)⟩

end OpenSimp
