import OpenSimp.Properties.Accounts
import OpenSimp.Room.Names
import OpenSimp.Toy.Library

/-!
# Who speaks under a registered name

Logging in under a registered name takes its password, but renaming does not: `nick` never looks
at `userdata.yml`. Every `Done` client under a registered name has proved that it may use it
exactly as long as nobody renames itself to a registered name it has not proved.
-/

namespace OpenSimp

open Bytes FaultState System ServerNetwork

variable {R R' : Room} {L : Library} {w : World} {i : ℕ} {r : Row} {req : Request} {q : Reply}
  {u p : Bytes}

instance (L : Library) (text u : Bytes) : Decidable (Registered L text u) :=
  decidable_of_iff
    ((match L.yamlLoad text with
      | none => false
      | some config =>
        match config.subscript u with
        | .error _ => false
        | .ok user => user.isDefined) = true) <| by
    rw [Registered]
    constructor
    · intro h
      split at h
      · cases h
      · split at h
        · cases h
        · exact ⟨_, _, ‹_›, ‹_›, h⟩
    · rintro ⟨config, user, hload, huser, hdef⟩
      rw [hload]
      simp only [huser, hdef]

/-- In the step the connection `conn` presents the stored password of the user `u`, or registers
that user. -/
def Proves (L : Library) (st : Step Config Event Obs) (conn : ℕ) (u : Bytes) : Prop :=
  ∃ i w r p, st.event = .receive i w ∧ st.pre.row? i = some r ∧ r.conn = conn ∧
    r.status = .undone ∧ w.status ≠ .disconnected ∧ Presented L w.data u p ∧
    (Stored L st.pre.server.userdata u p ∨ .registered u p ∈ st.obs.acts)

/-- After the steps of a run every `Done` client under a registered name has proved that name. -/
def Config.IdentityProved (L : Library) (c : Config) (steps : List (Step Config Event Obs)) :
    Prop :=
  ∀ k r, c.row? k = some r → r.status = .done → Registered L c.server.userdata r.clientid →
    ∃ st ∈ steps, Proves L st r.conn r.clientid

/-- The poll of the row `r` reads a packet that asks for the alias `u`. -/
structure RenameRequest (L : Library) (w : World) (r : Row) (u : Bytes) : Prop where
  done : r.status = .done
  still_open : w.status ≠ .disconnected
  no_spam : ¬ asMilliseconds (w.now - r.interval) ≤ 20
  packet : ∃ iv d, Cryptography.decrypt L w.data serverKey = .ok (iv, d) ∧ check d = true ∧
    d.length < 4096 ∧ startsWith 51 d = true ∧ d.drop 2 = u

/-- Everybody who renames itself to a registered name that is free has proved that name before. -/
def ProvesBeforeRenaming (L : Library) (steps : List (Step Config Event Obs)) : Prop :=
  ∀ before st after, steps = before ++ st :: after → ∀ i w r u, st.event = .receive i w →
    st.pre.row? i = some r → RenameRequest L w r u → u ∉ st.pre.server.clientidArray →
    Registered L st.pre.server.userdata u → ∃ st' ∈ before, Proves L st' r.conn u

/-! ### Requests -/

lemma requestOfPlaintext_eq_rename {d : Bytes} : requestOfPlaintext d = .rename u ↔
    check d = true ∧ d.length < 4096 ∧ startsWith 51 d = true ∧ d.drop 2 = u := by
  rw [requestOfPlaintext]
  constructor
  · intro h
    split_ifs at h with hcheck hlen h48 h51
    cases h
    exact ⟨hcheck, not_le.mp hlen, h51, rfl⟩
  · rintro ⟨hcheck, hlen, h51, rfl⟩
    have h48 : ¬ startsWith 48 d = true := by
      obtain ⟨t, rfl⟩ := startsWith_iff.mp h51
      simp [startsWith]
    rw [if_neg (not_not.mpr hcheck), if_neg (not_le.mpr hlen), if_neg h48, if_pos h51]

lemma Room.request_rename_iff (hdone : r.status = .done) :
    R.request L w r = .ok (.rename u) ↔ RenameRequest L w r u := by
  constructor
  · intro h
    obtain ⟨d, ⟨-, hopen, hspam, iv, hdec⟩, hd⟩ :=
      Room.request_sends hdone h (by simp [Request.Unpacked])
    exact ⟨hdone, hopen, hspam, iv, d, hdec, requestOfPlaintext_eq_rename.mp hd⟩
  · rintro ⟨-, hopen, hspam, iv, d, hdec, hd⟩
    rw [Room.request_of_sends ⟨hdone, hopen, hspam, iv, hdec⟩,
      requestOfPlaintext_eq_rename.mpr hd]

/-! ### The proof of a name stays in the run -/

/-- A poll registers none of the aliases in use. -/
lemma Room.Outcome.registered_old {accounts : List (Bytes × Bytes)} (hL : YamlLaws L)
    (hw : Written L R.userdata accounts) (hreq : R.request L w r = .ok req)
    (h : R.Outcome L i r req q) {a : Bytes} (ha : a ∈ R.rows.map (·.clientid))
    (hreg : Registered L q.room.userdata a) : Registered L R.userdata a := by
  cases h with
  | quiet _ _ _ huserdata | renamed _ _ _ _ huserdata | loggedIn _ _ _ _ huserdata
  | keyed _ _ _ huserdata => rwa [huserdata] at hreg
  | refusedKey hc | dropped hc => rwa [hc.userdata] at hreg
  | registered _ hu _ _ huserdata =>
    have hnew := (hw.registered_iff hL).not.mp (Room.request_register hreq).2
    rw [huserdata, (hw.append hL hu.2 hnew _).registered_iff hL, List.map_append,
      List.mem_append] at hreg
    rw [hw.registered_iff hL]
    rcases hreg with hreg | hreg
    · exact hreg
    · simp only [List.map_singleton, List.mem_singleton] at hreg
      rw [hreg] at ha
      exact absurd ha hu.1

/-- Every client that has logged in under a registered name has proved it in a step of the run. -/
def Room.IdentityProved (L : Library) (R : Room) (steps : List (System.Step Room Event Obs)) :
    Prop :=
  ∀ r ∈ R.rows, r.status ≠ .undone → Registered L R.userdata r.clientid →
    ∃ st ∈ steps, Proves L (st.map Room.config) r.conn r.clientid

lemma Room.proves_of_presented {o : Obs} (hr : R.rows[i]? = some r) (hundone : r.status = .undone)
    (hclosed : w.status ≠ .disconnected) (hpres : Presented L w.data u p)
    (h : Stored L R.userdata u p ∨ .registered u p ∈ o.acts) :
    Proves L (System.Step.map Room.config ⟨R, .receive i w, o, q.room⟩) r.conn u :=
  ⟨i, w, r, p, rfl, (Room.config_row? R i).trans hr, rfl, hundone, hclosed, hpres, h⟩

lemma Room.request_not_closed (h : R.request L w r = .ok req) (hleave : req ≠ .leave) :
    w.status ≠ .disconnected := by
  intro hclosed
  rw [Room.request, if_pos hclosed] at h
  cases h
  exact hleave rfl

lemma Room.IdentityProved.serve {accounts : List (Bytes × Bytes)}
    {steps : List (System.Step Room Event Obs)} {o : Obs} (hL : YamlLaws L)
    (hw : Written L R.userdata accounts) (hnamed : R.Named)
    (h : R.IdentityProved L steps) (hr : R.rows[i]? = some r)
    (hserve : R.serve L w i r = .ok q) (ho : o.acts = q.acts)
    (hren : ∀ u, RenameRequest L w r u → u ∉ R.clientids → Registered L R.userdata u →
      ∃ st ∈ steps, Proves L (st.map Room.config) r.conn u) :
    q.room.IdentityProved L (steps ++ [⟨R, .receive i w, o, q.room⟩]) := by
  obtain ⟨req, hreq, hout⟩ := Room.serve_outcome hserve
  have hmem := List.mem_of_getElem? hr
  have hfits := Room.request_fits hreq
  have hold : ∀ r' ∈ R.rows, r'.status ≠ .undone → Registered L q.room.userdata r'.clientid →
      ∃ st ∈ steps ++ [⟨R, .receive i w, o, q.room⟩],
        Proves L (System.Step.map Room.config st) r'.conn r'.clientid := by
    intro r' hr' hstatus hreg
    obtain ⟨st, hst, hproves⟩ := h r' hr' hstatus
      (hout.registered_old hL hw hreq (List.mem_map_of_mem hr') hreg)
    exact ⟨st, List.mem_append_left _ hst, hproves⟩
  have hlast : ∀ u, Proves L (System.Step.map Room.config ⟨R, .receive i w, o, q.room⟩) r.conn u →
      ∃ st ∈ steps ++ [⟨R, .receive i w, o, q.room⟩],
        Proves L (System.Step.map Room.config st) r.conn u :=
    fun u hproves => ⟨_, List.mem_append_right _ (List.mem_singleton_self _), hproves⟩
  intro r' hr' hstatus hreg
  cases hout with
  | quiet hc hf =>
    obtain ⟨hid, hsame⟩ := hf r.toProfile
    rcases (hc.mem_rows hr).mp hr' with rfl | ⟨hr', -⟩
    · simp only [Row.update, hid, hsame] at hstatus hreg ⊢
      exact hold r hmem hstatus hreg
    · exact hold r' hr' hstatus hreg
  | renamed hc ha hf _ huserdata =>
    obtain ⟨hid, -⟩ := hf r.toProfile
    rcases (hc.mem_rows hr).mp hr' with rfl | ⟨hr', -⟩
    · have hdone := (hnamed.named r hmem).eq_done hfits.1 hfits.2
      simp only [Row.update, hid] at hreg ⊢
      rw [huserdata] at hreg
      obtain ⟨st, hst, hproves⟩ := hren _ ((Room.request_rename_iff hdone).mp hreq) ha.1 hreg
      exact ⟨st, List.mem_append_left _ hst, hproves⟩
    · exact hold r' hr' hstatus hreg
  | loggedIn hc _ hf =>
    rcases (hc.mem_rows hr).mp hr' with rfl | ⟨hr', -⟩
    · obtain ⟨p, hpres, hstored⟩ := Room.request_login hreq
      simp only [Row.update, (hf r.toProfile).1]
      apply hlast
      exact Room.proves_of_presented hr hfits (Room.request_not_closed hreq (by simp)) hpres
        (.inl hstored)
    · exact hold r' hr' hstatus hreg
  | registered hc ha hf =>
    rcases (hc.mem_rows hr).mp hr' with rfl | ⟨hr', -⟩
    · simp only [Row.update, (hf r.toProfile).1]
      apply hlast
      refine Room.proves_of_presented hr hfits (Room.request_not_closed hreq (by simp))
        (Room.request_register hreq).1 (.inr ?_)
      rw [ho, ← mem_registrations]
      cases Room.serve_registers hr hreq hserve with
      | one _ _ hacts => simp [hacts]
      | none hrefused => exact absurd ha (hrefused _ _ rfl)
    · exact hold r' hr' hstatus hreg
  | keyed hc hf =>
    have hkey : r.status = .keyReceived := hfits
    rcases (hc.mem_rows hr).mp hr' with rfl | ⟨hr', -⟩
    · simp only [Row.update, (hf r.toProfile).1] at hreg ⊢
      exact hold r hmem (by simp [hkey]) hreg
    · exact hold r' hr' hstatus hreg
  | refusedKey hc | dropped hc => exact hold r' ((hc.mem_rows hr).mp hr').1 hstatus hreg

lemma ProvesBeforeRenaming.of_append {steps after : List (Step Config Event Obs)}
    (h : ProvesBeforeRenaming L (steps ++ after)) : ProvesBeforeRenaming L steps := by
  intro before st' after' hsteps
  exact h before st' (after' ++ after) (by rw [hsteps]; simp)

/-- Along a run in which names are proved before they are taken, everybody has proved its name. -/
lemma Room.identityProved_of_run {text : Bytes} {accounts : List (Bytes × Bytes)}
    {steps : List (System.Step Room Event Obs)} (hL : YamlLaws L) (hw : Written L text accounts)
    (h : (room L).Run (Room.init text) steps R)
    (hren : ProvesBeforeRenaming L (steps.map (Step.map Room.config))) :
    R.IdentityProved L steps := by
  induction h with
  | nil =>
    intro r hr
    cases hr
  | @snoc steps R R' e o hrun hstep ih =>
    rw [List.map_append, List.map_singleton] at hren
    have h := ih hren.of_append
    have hold : R'.rows ⊆ R.rows → R'.userdata = R.userdata →
        R'.IdentityProved L (steps ++ [⟨R, e, o, R'⟩]) := by
      intro hrows huserdata r hr hstatus hreg
      obtain ⟨st, hst, hproves⟩ := h r (hrows hr) hstatus (huserdata ▸ hreg)
      exact ⟨st, List.mem_append_left _ hst, hproves⟩
    cases hstep with
    | accepted hp hstatus =>
      intro r hr hstatus' hreg
      rcases List.mem_append.mp hr with hr | hr
      · obtain ⟨st, hst, hproves⟩ := h r hr hstatus' hreg
        exact ⟨st, List.mem_append_left _ hst, hproves⟩
      · rw [List.mem_singleton.mp hr] at hstatus'
        exact absurd rfl hstatus'
    | declined hp hstatus => exact hold (fun _ hr => hr) rfl
    | served hr hserve =>
      refine h.serve hL (Room.written_of_run hL hw hrun) (Room.named_of_reachable hrun.reachable)
        hr hserve rfl fun u hreq hfree hreg => ?_
      obtain ⟨st, hst, hproves⟩ := hren _ _ [] rfl _ _ _ u rfl ((Room.config_row? R _).trans hr)
        hreq hfree hreg
      obtain ⟨rst, hrst, rfl⟩ := List.mem_map.mp hst
      exact ⟨rst, hrst, hproves⟩

/-- A rename to a free valid alias is carried out. -/
lemma Room.serve_rename (hr : R.rows[i]? = some r) (hreq : R.request L w r = .ok (.rename u))
    (hu : R.Admits u) (hserve : R.serve L w i r = .ok q) :
    q.room.rows[i]? = some { r.polled w with clientid := u } ∧ q.room.userdata = R.userdata := by
  rw [Room.serve, hreq, ok_bind, Room.respond, if_pos ((Room.polled_admits u).mpr hu)] at hserve
  cases hserve
  exact ⟨Room.getElem?_rename (Room.getElem?_polled hr) u, Room.polled_userdata⟩

/-- In a run from a file that the server wrote, every `Done` client under a registered name has
proved that name in every state reached, if and only if everybody who renames itself to a free
registered name has proved it before. -/
theorem identity_proved_iff (L : Library) (hL : YamlLaws L) {text : Bytes}
    {accounts : List (Bytes × Bytes)} (hw : Written L text accounts)
    {steps : List (Step Config Event Obs)} {c : Config}
    (h : (server L).Run (Config.init text) steps c) :
    (∀ before after c', steps = before ++ after → (server L).Run (Config.init text) before c' →
      c'.IdentityProved L before) ↔ ProvesBeforeRenaming L steps := by
  constructor
  · intro hall before st after hsteps i w r u he hr hreq hfree hreg
    obtain ⟨hpre, hstep⟩ := h.split hsteps
    have hpost := hall (before ++ [st]) after st.post (by rw [hsteps]; simp) (hpre.snoc hstep)
    obtain ⟨rsteps, R, hrun, hbefore, hconf⟩ := run_lift hpre
    rw [he, hconf] at hstep
    obtain ⟨R', hR', hrstep⟩ := room_embeds L R _ _ _ hstep
    obtain ⟨r', q, hr', hserve, -, rfl⟩ := Room.Step.served_inv hrstep
    rw [hconf] at hr hfree hreg
    cases hr'.symm.trans ((Room.config_row? R i).symm.trans hr)
    have hwR := Room.written_of_run hL hw hrun
    have hvalid : ValidAlias u := by
      obtain ⟨a, ha, rfl⟩ := List.mem_map.mp ((hwR.registered_iff hL).mp hreg)
      exact hwR.valid a ha
    obtain ⟨hrow, huserdata⟩ := Room.serve_rename hr'
      ((Room.request_rename_iff hreq.done).mpr hreq) ⟨hfree, hvalid⟩ hserve
    rw [hR'] at hpost
    obtain ⟨st', hst', hproves⟩ := hpost i _ ((Room.config_row? _ i).trans hrow)
      (Row.polled_status.trans hreq.done) (show Registered L q.room.userdata u from
        huserdata ▸ hreg)
    rcases List.mem_append.mp hst' with hst' | hst'
    · have hconn : ({ r.polled w with clientid := u } : Row).conn = r.conn := Row.polled_conn
      rw [hconn] at hproves
      exact ⟨st', hst', hproves⟩
    · -- the renaming itself proves nothing, since its client is `Done`
      rw [List.mem_singleton.mp hst'] at hproves
      obtain ⟨i', w', r', p, he', hr'', -, hundone, -⟩ := hproves
      cases he.symm.trans he'
      rw [hconf, Room.config_row?, hr'] at hr''
      cases hr''
      cases hundone.symm.trans hreq.done
  · intro hren before after c' hsteps hrun k r hr hdone hreg
    subst hsteps
    obtain ⟨rsteps, R, hrrun, rfl, rfl⟩ := run_lift hrun
    rw [Room.config_row?] at hr
    obtain ⟨st, hst, hproves⟩ := Room.identityProved_of_run hL hw hrrun hren.of_append r
      (List.mem_of_getElem? hr) (by simp [hdone]) hreg
    exact ⟨_, List.mem_map_of_mem hst, hproves⟩

/-- Alice registers, takes a free name and then her own again. -/
def Toy.renamingBack : List Event :=
  [joins 1, polls 0 (logsIn (ascii "alice") (ascii "pw")) 5,
    polls 0 modulus 30, polls 0 (seals (ascii "3 eve")) 99,
    polls 0 (seals (ascii "3 alice")) 199]

theorem identity_proved_iff_toy :
    ∃ steps c, play toy (Config.init []) Toy.renamingBack = some (steps, c) ∧
      c.server.clientidArray = [ascii "alice"] ∧
      ((∀ before after c', steps = before ++ after →
        (server toy).Run (Config.init []) before c' → c'.IdentityProved toy before) ↔
          ProvesBeforeRenaming toy steps) := by
  have hsome : (play toy (Config.init []) Toy.renamingBack).map (·.2.server.clientidArray) =
      some [ascii "alice"] := by decide +kernel
  obtain ⟨⟨steps, c⟩, hplay, hids⟩ := Option.map_eq_some_iff.mp hsome
  exact ⟨steps, c, hplay, hids, identity_proved_iff toy toy_yamlLaws .nil (run_of_play hplay)⟩

/-- Whether the toy client `conn` sends credentials for the user `u` in the step. -/
def Toy.presents (st : Step Config Event Obs) (conn : ℕ) (u : Bytes) : Bool :=
  match st.event with
  | .accept _ _ => false
  | .receive i w =>
    (st.pre.row? i).any (·.conn == conn) &&
      (toy.rsaDecrypt w.data).any fun decstr => (credentials decstr).uname == u

lemma Toy.presents_of_proves {st : Step Config Event Obs} {conn : ℕ} (h : Proves toy st conn u) :
    presents st conn u = true := by
  obtain ⟨i, w, r, p, he, hr, rfl, -, -, ⟨decstr, hdec, rfl, -⟩, -⟩ := h
  simp [presents, he, hr, hdec]

/-- Alice registers and leaves, Bob registers and renames himself to Alice. -/
def Toy.impersonating : List Event :=
  [joins 1, polls 0 (logsIn (ascii "alice") (ascii "pw")) 5, leaves 0, joins 2,
    polls 0 (logsIn (ascii "bob") (ascii "pw")) 20,
    polls 0 modulus 30, polls 0 (seals (ascii "3 alice")) 99]

theorem not_identity_proved_toy :
    ¬ ∀ steps c, (server toy).Run (Config.init []) steps c → c.IdentityProved toy steps := by
  have hsome : (play toy (Config.init []) Toy.impersonating).map (fun x =>
      ((x.2.row? 0).map fun r => (r.conn, r.clientid, r.status),
        decide (Registered toy x.2.server.userdata (ascii "alice")),
        x.1.any fun st => Toy.presents st 1 (ascii "alice"))) =
      some (some (1, ascii "alice", .done), true, false) := by decide +kernel
  obtain ⟨⟨steps, c⟩, hplay, hfacts⟩ := Option.map_eq_some_iff.mp hsome
  simp only [Prod.mk.injEq, Option.map_eq_some_iff, decide_eq_true_eq] at hfacts
  obtain ⟨⟨r, hr, hconn, hid, hdone⟩, hreg, hnone⟩ := hfacts
  intro hall
  obtain ⟨st, hst, hproves⟩ :=
    hall steps c (run_of_play hplay) 0 r hr hdone (hid ▸ hreg)
  rw [hconn, hid] at hproves
  have hpresents := Toy.presents_of_proves hproves
  exact absurd hpresents (by simpa using List.any_eq_false.mp hnone st hst)

end OpenSimp
