import OpenSimp.Room.Emission
import OpenSimp.Room.Names
import OpenSimp.Toy.Library

/-!
# Aliases and authentication

A client's status only advances, its alias is the sentinel exactly before it has logged in, and no
two clients share an alias. Two branches of the server are therefore never taken.
-/

namespace OpenSimp

open Bytes System ServerNetwork

variable {R R' : Room} {L : Library} {w : World} {i : ℕ} {r : Row} {req : Request} {q : Reply}

/-! ### Statuses advance -/

/-- One step of a connection's status, or none. -/
inductive AuthStatus.Advances : AuthStatus → AuthStatus → Prop where
  | stays (s : AuthStatus) : Advances s s
  | loggedIn : Advances .undone .keyReceived
  | gotKey : Advances .keyReceived .done

/-- Every row after a poll was there before or is the polled one, further on. -/
lemma Room.Outcome.row_cases (hr : R.rows[i]? = some r) (hfits : req.Fits r.status)
    (h : R.Outcome L i r req q) {r' : Row} (hr' : r' ∈ q.room.rows) :
    r' ∈ R.rows ∨ r'.conn = r.conn ∧ r.status.Advances r'.status := by
  have hmodify : ∀ {f : Profile → Profile}, q.Changes R i f →
      r.status.Advances (f r.toProfile).status →
      r' ∈ R.rows ∨ r'.conn = r.conn ∧ r.status.Advances r'.status := by
    intro f hc hadv
    rcases (hc.mem_rows hr).mp hr' with rfl | ⟨hmem, -⟩
    · exact .inr ⟨rfl, hadv⟩
    · exact .inl hmem
  cases h with
  | quiet hc hf | renamed hc _ hf =>
    apply hmodify hc
    rw [(hf r.toProfile).2]
    exact .stays _
  | loggedIn hc _ hf | registered hc _ hf =>
    have hundone : r.status = .undone := hfits
    apply hmodify hc
    rw [(hf r.toProfile).2, hundone]
    exact .loggedIn
  | keyed hc hf =>
    have hkey : r.status = .keyReceived := hfits
    apply hmodify hc
    rw [(hf r.toProfile).2, hkey]
    exact .gotKey
  | refusedKey hc | dropped hc => exact .inl ((hc.mem_rows hr).mp hr').1

lemma Room.Step.advances {e : Event} {o : Obs} (h : Room.Step L R e o R') {r r' : Row}
    (hr : r ∈ R.rows) (hr' : r' ∈ R'.rows) (hconn : r.conn = r'.conn) :
    r.status.Advances r'.status := by
  have hsame : ∀ r₁ ∈ R.rows, r.conn = r₁.conn → r = r₁ :=
    fun r₁ hr₁ => List.eq_of_map_nodup R.nodup_conn hr hr₁
  have hold : r' ∈ R.rows → r.status.Advances r'.status := by
    intro hmem
    rw [hsame r' hmem hconn]
    exact .stays _
  cases h with
  | accepted hp hstatus =>
    rcases List.mem_append.mp hr' with hmem | hmem
    · exact hold hmem
    · rw [List.mem_singleton.mp hmem] at hconn
      exact absurd hconn (R.conn_lt r hr).ne
  | declined hp hstatus => exact hold hr'
  | served hr₁ hserve =>
    obtain ⟨req, hreq, hout⟩ := Room.serve_outcome hserve
    rcases hout.row_cases hr₁ (Room.request_fits hreq) hr' with hmem | ⟨hconn', hadv⟩
    · exact hold hmem
    · rw [hsame _ (List.mem_of_getElem? hr₁) (hconn.trans hconn')]
      exact hadv

/-- A connection that appears is a new one. -/
lemma Room.Step.fresh_undone {e : Event} {o : Obs} (h : Room.Step L R e o R') {r' : Row}
    (hr' : r' ∈ R'.rows) (hnew : r'.conn ∉ R.rows.map Row.conn) : r'.status = .undone := by
  cases h with
  | accepted hp hstatus =>
    rcases List.mem_append.mp hr' with hmem | hmem
    · exact absurd (List.mem_map_of_mem hmem) hnew
    · rw [List.mem_singleton.mp hmem]
      rfl
  | declined hp hstatus => exact absurd (List.mem_map_of_mem hr') hnew
  | served hr₁ hserve =>
    obtain ⟨req, hreq, hout⟩ := Room.serve_outcome hserve
    rcases hout.row_cases hr₁ (Room.request_fits hreq) hr' with hmem | ⟨hconn, -⟩
    · exact absurd (List.mem_map_of_mem hmem) hnew
    · exact absurd (hconn ▸ List.mem_map_of_mem (List.mem_of_getElem? hr₁)) hnew

/-! ### Branches that are not taken -/

/-- The packet of `nick`'s whitespace branch. -/
def emptyStuff : Packet := directPacket (ascii "Stop sending empty stuff.")

lemma Room.Announces.ne_emptyStuff {data : Bytes} (h : R.Announces i r req data) :
    Packet.sealed (cstr data) ≠ emptyStuff := by
  cases h <;> intro heq <;> cases heq

lemma Room.Tells.ne_emptyStuff {p : Sock} {str : Bytes} (h : R.Tells r req p str) :
    directPacket str ≠ emptyStuff := by
  cases h with
  | help args =>
    rw [helpReply]
    split_ifs <;> decide
  | direct =>
    rw [directText_eq]
    intro heq
    cases heq
  | unreadable | blank | plugins | self => decide
  | unknown =>
    intro heq
    cases heq

lemma Room.Emission.ne_emptyStuff {a : Act} (h : R.Emission L w i r req a) (p : Sock) :
    a ≠ .sent p emptyStuff := by
  rintro rfl
  generalize hpacket : emptyStuff = packet at h
  cases h with
  | announced h => exact h.ne_emptyStuff hpacket.symm
  | told h => exact h.ne_emptyStuff hpacket.symm
  | spb => cases hpacket
  | serverKey => cases hpacket

/-- Neither branch is taken in a step from a room whose aliases fit. -/
lemma Room.Step.no_refusal_branch {e : Event} {o : Obs} (hR : R.Named)
    (h : Room.Step L R e o R') :
    (∀ k, .disconnected k .disconnectUnnamed ∉ o.acts) ∧
      ∀ p, .sent p emptyStuff ∉ o.acts := by
  cases h with
  | accepted hp hstatus =>
    refine ⟨by simp, fun p hmem => ?_⟩
    cases List.mem_singleton.mp hmem
  | declined hp hstatus => simp
  | @served i w r q hr hserve =>
    obtain ⟨req, hreq, -⟩ := Room.serve_outcome hserve
    have hrow := hR.named r (List.mem_of_getElem? hr)
    refine ⟨fun k hmem => ?_, fun p hmem =>
      (Room.serve_emission hr hreq hserve hmem).ne_emptyStuff p rfl⟩
    cases Room.serve_emission hr hreq hserve hmem with
    | disconnected hunnamed =>
      obtain ⟨hid, text, rfl⟩ := hunnamed rfl
      exact (Room.request_fits hreq).1 (hrow.undone_iff.mpr hid)

/-! ### The invariant -/

/-- Aliases and statuses fit in the whole table. -/
structure Config.AliasesFit (c : Config) : Prop where
  undone_iff : ∀ k r, c.row? k = some r → (r.status = .undone ↔ r.clientid = sentinel)
  valid : ∀ k r, c.row? k = some r → r.status = .keyReceived ∨ r.status = .done →
    3 ≤ r.clientid.length ∧ r.clientid.length ≤ 16 ∧ ∀ x ∈ r.clientid, isAliasChar x = true
  ne_failed : ∀ k r, c.row? k = some r → r.status ≠ .failed
  unique : ∀ k k' r r', c.row? k = some r → c.row? k' = some r' → r.clientid = r'.clientid →
    r.clientid ≠ sentinel → k = k'

/-- The statuses of connections advance from one configuration to the next, and the connections
that appear are `Undone`. -/
structure Config.Advances (c c' : Config) : Prop where
  advances : ∀ k k' r r', c.row? k = some r → c'.row? k' = some r' → r.conn = r'.conn →
    r.status.Advances r'.status
  undone : ∀ k' r', c'.row? k' = some r' → (∀ k r, c.row? k = some r → r.conn ≠ r'.conn) →
    r'.status = .undone

lemma Room.Named.aliasesFit (h : R.Named) : R.config.AliasesFit where
  undone_iff := by
    intro k r hr
    rw [Room.config_row?] at hr
    exact (h.named r (List.mem_of_getElem? hr)).undone_iff
  valid := by
    intro k r hr hstatus
    rw [Room.config_row?] at hr
    have hrow := h.named r (List.mem_of_getElem? hr)
    obtain ⟨hmin, hmax, hchars⟩ := hrow.valid (by rcases hstatus with hs | hs <;> simp [hs])
    exact ⟨hmin, hmax, List.all_eq_true.mp hchars⟩
  ne_failed := by
    intro k r hr
    rw [Room.config_row?] at hr
    exact (h.named r (List.mem_of_getElem? hr)).ne_failed
  unique := by
    intro k k' r r' hr hr' heq hne
    rw [Room.config_row?] at hr hr'
    have := h.unique r (List.mem_of_getElem? hr) r' (List.mem_of_getElem? hr') heq hne
    exact List.index_eq_of_map_nodup R.nodup_conn hr hr' (this ▸ rfl)

lemma Room.Step.config_advances {e : Event} {o : Obs} (h : Room.Step L R e o R') :
    R.config.Advances R'.config where
  advances := by
    intro k k' r r' hr hr' hconn
    rw [Room.config_row?] at hr hr'
    exact h.advances (List.mem_of_getElem? hr) (List.mem_of_getElem? hr') hconn
  undone := by
    intro k' r' hr' hnew
    rw [Room.config_row?] at hr'
    apply h.fresh_undone (List.mem_of_getElem? hr')
    intro hmem
    obtain ⟨r, hr, hconn⟩ := List.mem_map.mp hmem
    obtain ⟨k, hk⟩ := List.mem_iff_getElem?.mp hr
    exact hnew k r (by rw [Room.config_row?, hk]) hconn

/-- In every run aliases and statuses fit, statuses only advance, and neither the disconnection of
an unnamed client nor the refusal of a blank alias happens. -/
theorem aliases_fit_and_statuses_advance (L : Library) (userdata : Bytes)
    {steps : List (Step Config Event Obs)} {c : Config}
    (h : (server L).Run (Config.init userdata) steps c) :
    c.AliasesFit ∧ ∀ st ∈ steps, st.post.AliasesFit ∧ st.pre.Advances st.post ∧
      (∀ k, .disconnected k .disconnectUnnamed ∉ st.obs.acts) ∧
      ∀ p, .sent p emptyStuff ∉ st.obs.acts := by
  obtain ⟨rsteps, R, hrun, rfl, rfl⟩ := run_lift h
  refine ⟨(Room.named_of_reachable hrun.reachable).aliasesFit, ?_⟩
  intro st hst
  obtain ⟨rst, hrst, rfl⟩ := List.mem_map.mp hst
  obtain ⟨hreach, hstep⟩ := hrun.of_mem hrst
  exact ⟨(Room.named_of_reachable (hreach.snoc hstep)).aliasesFit, hstep.config_advances,
    hstep.no_refusal_branch (Room.named_of_reachable hreach)⟩

/-- A client logs in, exchanges keys and takes another name. -/
def Toy.renaming : List Event :=
  [joins 1, polls 0 (logsIn (ascii "alice") (ascii "pw")) 5,
    polls 0 modulus 10, polls 0 (seals (ascii "3 eve")) 99]

theorem aliases_fit_and_statuses_advance_toy :
    ∃ steps c, play toy (Config.init []) Toy.renaming = some (steps, c) ∧
      c.server.clientidArray = [ascii "eve"] ∧ c.AliasesFit ∧
      ∀ st ∈ steps, st.post.AliasesFit ∧ st.pre.Advances st.post ∧
        (∀ k, .disconnected k .disconnectUnnamed ∉ st.obs.acts) ∧
        ∀ p, .sent p emptyStuff ∉ st.obs.acts := by
  have hsome : (play toy (Config.init []) Toy.renaming).map (·.2.server.clientidArray) =
      some [ascii "eve"] := by decide +kernel
  obtain ⟨⟨steps, c⟩, hplay, hids⟩ := Option.map_eq_some_iff.mp hsome
  exact ⟨steps, c, hplay, hids, aliases_fit_and_statuses_advance toy [] (run_of_play hplay)⟩

end OpenSimp
