import OpenSimp.Properties.Robustness
import OpenSimp.Room.Presence

/-!
# Logins

A login is accepted exactly if the password is not empty, the alias is valid and free, and the user
is new or has that password. An accepted login changes its own row and registers a new user, and
all refused ones remove their row and send the same packets. So an account that was registered once
decides the logins of its user from then on.
-/

namespace OpenSimp

open Bytes FaultState System ServerNetwork

variable {R : Room} {L : Library} {w w' : World} {i : ℕ} {r : Row} {req : Request} {q : Reply}
  {accounts : List (Bytes × Bytes)} {text d u p : Bytes}

/-! ### The two fields of the credentials -/

/-- The part of the credentials before the first separator. -/
def username (d : Bytes) : Bytes := d.takeWhile (· ≠ separator)

/-- The part between the first and the second separator, or the end. -/
def password (d : Bytes) : Bytes :=
  ((d.dropWhile (· ≠ separator)).drop 1).takeWhile (· ≠ separator)

lemma foldl_credentialsStep_done (d : Bytes) (s : Credentials)
    (hs : s.userStatus = .gotUsernameAndPassword) : d.foldl credentialsStep s = s := by
  induction d with
  | nil => rfl
  | cons c d ih =>
    have hstep : credentialsStep s c = s := by
      rw [credentialsStep, hs]
      split_ifs <;> rfl
    rw [List.foldl_cons, hstep, ih]

lemma foldl_credentialsStep_passwd (d uname passwd : Bytes) :
    (d.foldl credentialsStep ⟨.gotUsername, uname, passwd⟩).uname = uname ∧
      (d.foldl credentialsStep ⟨.gotUsername, uname, passwd⟩).passwd = passwd ++ username d := by
  induction d generalizing passwd with
  | nil => simp [username]
  | cons c d ih =>
    rw [List.foldl_cons, credentialsStep]
    by_cases hc : c = separator
    · rw [if_pos hc, foldl_credentialsStep_done _ _ rfl]
      simp [username, hc]
    · rw [if_neg hc]
      obtain ⟨huname, hpasswd⟩ := ih (passwd ++ [c])
      refine ⟨huname, hpasswd.trans ?_⟩
      simp [username, hc]

lemma foldl_credentialsStep_uname (d uname : Bytes) :
    (d.foldl credentialsStep ⟨.gotNeither, uname, []⟩).uname = uname ++ username d ∧
      (d.foldl credentialsStep ⟨.gotNeither, uname, []⟩).passwd = password d := by
  induction d generalizing uname with
  | nil => simp [username, password]
  | cons c d ih =>
    rw [List.foldl_cons, credentialsStep]
    by_cases hc : c = separator
    · rw [if_pos hc]
      obtain ⟨huname, hpasswd⟩ := foldl_credentialsStep_passwd d uname []
      refine ⟨huname.trans ?_, hpasswd.trans ?_⟩
      · simp [username, hc]
      · simp [username, password, hc]
    · rw [if_neg hc]
      obtain ⟨huname, hpasswd⟩ := ih (uname ++ [c])
      refine ⟨huname.trans ?_, hpasswd.trans ?_⟩
      · simp [username, hc]
      · simp [password, hc]

lemma uname_credentials (d : Bytes) : (credentials d).uname = username d :=
  (foldl_credentialsStep_uname d []).1

lemma passwd_credentials (d : Bytes) : (credentials d).passwd = password d :=
  (foldl_credentialsStep_uname d []).2

lemma username_append (hu : separator ∉ u) (rest : Bytes) :
    username (u ++ ([separator] ++ rest)) = u := by
  have hne : ∀ c ∈ u, decide (c ≠ separator) = true := by
    intro c hc
    simpa using fun heq : c = separator => hu (heq ▸ hc)
  rw [username, List.takeWhile_append_of_pos hne]
  simp

lemma password_append (hu : separator ∉ u) (hp : separator ∉ p) :
    password (u ++ ([separator] ++ p)) = p := by
  have hne : ∀ c ∈ u, decide (c ≠ separator) = true := by
    intro c hc
    simpa using fun heq : c = separator => hu (heq ▸ hc)
  have hp' : p.takeWhile (· ≠ separator) = p := by
    rw [List.takeWhile_eq_self_iff]
    intro c hc
    simpa using fun heq : c = separator => hp (heq ▸ hc)
  rw [password, List.dropWhile_append_of_pos hne]
  simpa using hp'

/-! ### What a login does -/

namespace Config

variable (c c' : Config)

/-- The conditions under which the credentials `d` are accepted. -/
structure Accepts (accounts : List (Bytes × Bytes)) (d : Bytes) : Prop where
  password_ne : password d ≠ []
  valid : ValidAlias (username d)
  free : username d ∉ c.server.clientidArray
  known : username d ∉ accounts.map Prod.fst ∨ (username d, password d) ∈ accounts

/-- Row `i`, which is `r`, gets the alias `u` and is asked for its key, and no other row changes. -/
def LogsIn (i : ℕ) (r : Row) (u : Bytes) : Prop :=
  ∀ k, c'.row? k =
    if k = i then some { r with clientid := u, status := .keyReceived } else c.row? k

/-- Row `i` is removed, and no other row changes. -/
def LogsOut (i : ℕ) : Prop := ∀ k, c'.row? k = if k < i then c.row? k else c.row? (k + 1)

/-- The accounts after the credentials `d` were accepted. -/
def accountsAfter (accounts : List (Bytes × Bytes)) (d : Bytes) : List (Bytes × Bytes) :=
  if username d ∈ accounts.map Prod.fst then accounts else accounts ++ [(username d, password d)]

/-- The file has the accounts after the credentials `d`, and is as before if the user is not new. -/
structure Registers (L : Library) (accounts : List (Bytes × Bytes)) (d : Bytes) : Prop where
  written : Written L c'.server.userdata (accountsAfter accounts d)
  same : username d ∈ accounts.map Prod.fst → c'.server.userdata = c.server.userdata

/-- The bytes of the event cannot be decrypted or are credentials that are not accepted. -/
def Declines (L : Library) (accounts : List (Bytes × Bytes)) (w : World) : Prop :=
  ∀ d, L.rsaDecrypt w.data = some d → ¬ c.Accepts accounts d

end Config

/-! ### The request of a login -/

lemma Room.request_of_undone (hundone : r.status = .undone) (hopen : w.status ≠ .disconnected)
    (hdata : w.data ≠ []) : R.request L w r = requestOfLogin L R.userdata w.data := by
  rw [Room.request_of_data hopen hdata, if_neg (by simp [hundone]), Room.requestOfData,
    if_pos hundone]

/-- What accepted credentials ask for. -/
lemma requestOfLogin_of_accepts (hL : YamlLaws L) (hw : Written L R.userdata accounts)
    (hdec : L.rsaDecrypt w.data = some d) (h : R.config.Accepts accounts d) :
    requestOfLogin L R.userdata w.data = .ok
      (if username d ∈ accounts.map Prod.fst then .login (username d)
      else .register (username d) (password d)) := by
  have hpres : Presented L w.data (username d) (password d) :=
    ⟨d, hdec, uname_credentials d, passwd_credentials d, h.valid.ne_nil, h.password_ne⟩
  rw [requestOfLogin_of_presented hpres, hw.requestOfCredentials_eq hL]
  rcases h.known with hnew | hstored
  · have hne : (username d, password d) ∉ accounts := fun hmem => hnew (List.mem_map_of_mem hmem)
    rw [if_neg hne, if_neg hnew, if_neg hnew]
  · rw [if_pos hstored, if_pos (List.mem_map_of_mem hstored)]

/-- What declined bytes ask for is refused. -/
lemma requestOfLogin_of_declines (hL : YamlLaws L) (hw : Written L R.userdata accounts)
    (h : R.config.Declines L accounts w) :
    ∃ req, requestOfLogin L R.userdata w.data = .ok req ∧
      (req = .garbledLogin ∨ req = .wrongPassword ∨
        ∃ u, req.alias = some u ∧ req.Fits .undone ∧ ¬ R.Admits u) := by
  by_cases hpres : ∃ u p, Presented L w.data u p
  · obtain ⟨u, p, hpres⟩ := hpres
    refine ⟨_, (requestOfLogin_of_presented hpres).trans (hw.requestOfCredentials_eq hL), ?_⟩
    obtain ⟨d, hdec, rfl, rfl, -, hp⟩ := hpres
    rw [uname_credentials, passwd_credentials] at *
    have hadmits : (username d ∉ accounts.map Prod.fst ∨ (username d, password d) ∈ accounts) →
        ¬ R.Admits (username d) := fun hknown hu => h d hdec ⟨hp, hu.2, hu.1, hknown⟩
    split_ifs with hstored hreg
    · exact .inr (.inr ⟨_, rfl, rfl, hadmits (.inr hstored)⟩)
    · exact .inr (.inl rfl)
    · exact .inr (.inr ⟨_, rfl, rfl, hadmits (.inl hreg)⟩)
  · simp only [not_exists] at hpres
    exact ⟨_, requestOfLogin_of_not_presented hpres, .inl rfl⟩

/-! ### Answering it -/

/-- Every refusal removes the row and sends the same packets. -/
lemma Room.respond_refused (h : req = .garbledLogin ∨ req = .wrongPassword ∨
      ∃ u, req.alias = some u ∧ req.Fits .undone ∧ ¬ R.Admits u) :
    ∃ useAfterFree, R.respond L w i r req =
      .ok { Reply.drop R w i r .disconnectKick [] with useAfterFree := useAfterFree } := by
  rcases h with rfl | rfl | ⟨u, halias, hfits, hu⟩
  · exact ⟨false, rfl⟩
  · exact ⟨true, rfl⟩
  · cases req with
    | login v | register v p =>
      cases halias
      rw [Room.respond, if_neg hu]
      exact ⟨false, rfl⟩
    | rename v => exact absurd rfl hfits.1
    | leave | spam | garbledLogin | wrongPassword | illegal | idle | unreadable | console
    | command text | key n | chat text => cases halias

lemma Room.logsOut_disconnect : R.config.LogsOut (R.disconnect i r).config i := by
  intro k
  rw [Room.config_row?, Room.config_row?, Room.config_row?, Room.disconnect,
    List.getElem?_eraseIdx]

lemma Room.logsIn_modify {R' : Room} (hr : R.rows[i]? = some r) {f : Profile → Profile}
    (hrows : R'.rows = R.rows.modify i (Row.update f))
    (hf : r.update f = { r with clientid := u, status := .keyReceived }) :
    R.config.LogsIn R'.config i r u := by
  intro k
  rw [Room.config_row?, Room.config_row?, hrows]
  split_ifs with hk
  · rw [hk, List.getElem?_modify_eq, hr, Option.map_eq_map, Option.map_some, hf]
  · rw [List.getElem?_modify_ne _ _ fun h => hk h.symm]

/-- A client that logs in is not removed. -/
lemma Room.not_logsIn_of_logsOut {c' : Config} (hr : R.rows[i]? = some r)
    (hout : R.config.LogsOut c' i) : ¬ R.config.LogsIn c' i r u := by
  intro hin
  have hi : i < R.rows.length := (List.getElem?_eq_some_iff.mp hr).1
  have hlast : ¬ R.rows.length - 1 < i := by omega
  have hnone := hout (R.rows.length - 1)
  rw [if_neg hlast, Room.config_row?, Nat.sub_add_cancel (by omega),
    List.getElem?_eq_none le_rfl] at hnone
  have hsome := hin (R.rows.length - 1)
  rw [hnone] at hsome
  split_ifs at hsome
  rw [Room.config_row?, List.getElem?_eq_getElem (by omega)] at hsome
  cases hsome

/-- Accepted credentials log the client in. -/
lemma Room.serve_accepts (hL : YamlLaws L) (hw : Written L R.userdata accounts)
    (hr : R.rows[i]? = some r) (hundone : r.status = .undone) (hopen : w.status ≠ .disconnected)
    (hdata : w.data ≠ []) (hdec : L.rsaDecrypt w.data = some d)
    (h : R.config.Accepts accounts d) :
    ∃ q, R.serve L w i r = .ok q ∧ R.config.LogsIn q.room.config i r (username d) ∧
      R.config.Registers q.room.config L accounts d := by
  have hreq := (Room.request_of_undone hundone hopen hdata).trans
    (requestOfLogin_of_accepts hL hw hdec h)
  have hadmits : R.Admits (username d) := ⟨h.free, h.valid⟩
  have hlogsIn : ∀ {R' : Room},
      R'.rows = ((R.rename i (username d)).setStatus i .keyReceived).rows →
      R.config.LogsIn R'.config i r (username d) := fun hrows =>
    Room.logsIn_modify (f := fun p => { p with clientid := username d, status := .keyReceived })
      hr (hrows.trans (List.modify_modify_eq _ _ _ _)) rfl
  rw [Room.serve_of_ne_done (by simp [hundone]) hreq]
  by_cases hreg : username d ∈ accounts.map Prod.fst
  · rw [if_pos hreg, Room.respond, if_pos hadmits]
    refine ⟨_, rfl, hlogsIn rfl, ?_, fun _ => rfl⟩
    rw [Config.accountsAfter, if_pos hreg]
    exact hw
  · rw [if_neg hreg, Room.respond, if_pos hadmits]
    refine ⟨_, rfl, hlogsIn rfl, ?_,
      fun hmem => absurd hmem hreg⟩
    rw [Config.accountsAfter, if_neg hreg]
    exact hw.append hL h.valid hreg _

/-- Bytes that are declined remove the client. -/
lemma Room.serve_declines (hL : YamlLaws L) (hw : Written L R.userdata accounts)
    (hundone : r.status = .undone) (hopen : w.status ≠ .disconnected) (hdata : w.data ≠ [])
    (h : R.config.Declines L accounts w) :
    ∃ useAfterFree, R.serve L w i r =
      .ok { Reply.drop R w i r .disconnectKick [] with useAfterFree := useAfterFree } := by
  obtain ⟨req, hreq, hrefused⟩ := requestOfLogin_of_declines hL hw h
  rw [Room.serve_of_ne_done (by simp [hundone])
    ((Room.request_of_undone hundone hopen hdata).trans hreq)]
  exact Room.respond_refused hrefused

lemma Room.disconnectActs_congr (hpeer : w'.peer = w.peer) (reason : DisconnectReason) :
    R.disconnectActs w' i r reason = R.disconnectActs w i r reason := by
  simp only [Room.disconnectActs, broadcastActs, recipients, hpeer]

/-- In every state the server reaches, a login is accepted exactly under the conditions of
`Accepts` and then does what it should, and any other removes its row, leaves the rest and the file
as they are, and sends the same packets. -/
theorem login_decided (L : Library) (hL : YamlLaws L) {userdata : Bytes} {c : Config}
    (h : (server L).Reachable (Config.init userdata) c) (hw : Written L c.server.userdata accounts)
    (hr : c.row? i = some r) (hundone : r.status = .undone) (hopen : w.status ≠ .disconnected)
    (hdata : w.data ≠ []) :
    ∃ m, (Event.code L (.receive i w)).run c.machine = .ok ((), m) ∧
      (∀ d, L.rsaDecrypt w.data = some d →
        (c.LogsIn m.config i r (username d) ∧ c.Registers m.config L accounts d ↔
          c.Accepts accounts d)) ∧
      (c.Declines L accounts w → c.LogsOut m.config i ∧ m.server.userdata = c.server.userdata ∧
        ∀ w' m', w'.peer = w.peer → w'.status ≠ .disconnected → w'.data ≠ [] →
          c.Declines L accounts w' →
          (Event.code L (.receive i w')).run c.machine = .ok ((), m') → m'.acts = m.acts) := by
  obtain ⟨R, -, rfl⟩ := reachable_lift h
  rw [Room.config_row?] at hr
  by_cases hdecl : R.config.Declines L accounts w
  · obtain ⟨useAfterFree, hserve⟩ := Room.serve_declines (i := i) hL hw hundone hopen hdata hdecl
    have hout := Room.logsOut_disconnect (R := R) (i := i) (r := r)
    refine ⟨_, by rw [Room.code_receive_run hr, hserve]; rfl, ?_, ?_⟩
    · intro d hdec
      exact iff_of_false (fun h => Room.not_logsIn_of_logsOut hr hout h.1) (hdecl d hdec)
    · refine fun _ => ⟨hout, rfl, ?_⟩
      intro w' m' hpeer hopen' hdata' hdecl' hrun
      obtain ⟨useAfterFree', hserve'⟩ :=
        Room.serve_declines (i := i) hL hw hundone hopen' hdata' hdecl'
      rw [Room.code_receive_run hr, hserve'] at hrun
      cases hrun
      exact Room.disconnectActs_congr hpeer _
  · have haccepts : ∃ d, L.rsaDecrypt w.data = some d ∧ R.config.Accepts accounts d := by
      simpa [Config.Declines] using hdecl
    obtain ⟨d, hdec, haccepts⟩ := haccepts
    obtain ⟨q, hserve, hin, hregisters⟩ :=
      Room.serve_accepts hL hw hr hundone hopen hdata hdec haccepts
    refine ⟨q.machine, by rw [Room.code_receive_run hr, hserve]; rfl, ?_, fun h => absurd h hdecl⟩
    intro d' hdec'
    cases hdec.symm.trans hdec'
    exact iff_of_true ⟨hin, hregisters⟩ haccepts

/-- A client has connected. -/
def Toy.connecting : List Event := [joins 1]

theorem login_decided_toy :
    ∃ steps c m, play toy (Config.init []) Toy.connecting = some (steps, c) ∧
      (Event.code toy (Toy.polls 0 (Toy.logsIn (ascii "alice") (ascii "pw")) 5)).run c.machine =
        .ok ((), m) ∧ ∃ r, c.LogsIn m.config 0 r (ascii "alice") := by
  have hsome : (play toy (Config.init []) Toy.connecting).map
      (fun x => (x.2.server.userdata, x.2.server.clientidArray, (x.2.row? 0).map (·.status))) =
      some ([], [sentinel], some .undone) := by decide +kernel
  obtain ⟨⟨steps, c⟩, hplay, heq⟩ := Option.map_eq_some_iff.mp hsome
  simp only [Prod.mk.injEq] at heq
  obtain ⟨hdata, hids, hrow⟩ := heq
  obtain ⟨r, hr, hstatus⟩ := Option.map_eq_some_iff.mp hrow
  have hdec : toy.rsaDecrypt (Toy.world .done (Toy.logsIn (ascii "alice") (ascii "pw")) 5).data =
      some (ascii "alice" ++ [separator] ++ ascii "pw") := by decide +kernel
  obtain ⟨m, hrun, hlogin, -⟩ := login_decided toy toy_yamlLaws (run_of_play hplay).reachable
    (hdata ▸ Written.nil) hr hstatus
    (w := Toy.world .done (Toy.logsIn (ascii "alice") (ascii "pw")) 5) (by decide)
    (by decide +kernel)
  refine ⟨steps, c, m, hplay, hrun, r, ((hlogin _ hdec).mpr ⟨?_, ?_, ?_, ?_⟩).1⟩
  · decide +kernel
  · decide +kernel
  · rw [hids]
    decide +kernel
  · exact .inl (by simp)

/-! ### Registered accounts -/

lemma loadUserdata_run {m : Machine} {config : Node}
    (hload : L.yamlLoad m.server.userdata = some config) :
    (loadUserdata L).run m = .ok (config, m) := by
  have hread : readUserdata.run m = .ok (m.server.userdata, m) := rfl
  rw [loadUserdata, run_bind_ok hread, hload, run_ofOption_some]

/-- For a registered user the comparison with the stored password decides. -/
lemma Written.authenticate_run (hL : YamlLaws L) (hw : Written L text accounts)
    (hu : (u, p) ∈ accounts) (w : World) (q : Bytes) (client : Sock) (i : ℕ) {m : Machine}
    (hm : m.server.userdata = text) :
    (authenticate L w u q client i).run m =
      if q = p then (nick w u client i).run m else (refusePassword w client i).run m := by
  obtain ⟨config, hload, ⟨-, hmem⟩ | ⟨p', hsub, hmem⟩⟩ := hw.lookup hL u
  · exact absurd (List.mem_map_of_mem hu) hmem
  cases hw.password_eq hu hmem
  have huser : (ofExcept (config.subscript u) : M Node).run m = .ok (accountNode p, m) := by
    rw [hsub, run_ofExcept_ok]
  rw [authenticate, run_bind_ok (loadUserdata_run (hm ▸ hload)), run_bind_ok huser,
    if_pos (by rfl), accountNode_subscript, run_bind_ok (run_ofExcept_ok _ _), if_pos (by rfl)]
  have hstr : (ofExcept (Node.asString (.scalar p)) : M Bytes).run m = .ok (p, m) := rfl
  rw [run_bind_ok hstr, run_ite]
  by_cases hq : q = p
  · rw [if_pos hq, if_pos hq.symm]
  · rw [if_neg hq, if_neg (Ne.symm hq)]

/-- The password of an account decides whether its user gets the name, if the name is free. -/
lemma Room.logsIn_iff (hL : YamlLaws L) (hw : Written L R.userdata accounts)
    (hu : (username d, p) ∈ accounts) (hp : p ≠ []) (hr : R.rows[i]? = some r)
    (hundone : r.status = .undone) (hopen : w.status ≠ .disconnected) (hdata : w.data ≠ [])
    (hdec : L.rsaDecrypt w.data = some d) :
    ∃ q, R.serve L w i r = .ok q ∧ (R.config.LogsIn q.room.config i r (username d) ↔
      password d = p ∧ username d ∉ R.config.server.clientidArray) := by
  by_cases haccepts : R.config.Accepts accounts d
  · obtain ⟨q, hserve, hin, -⟩ := Room.serve_accepts hL hw hr hundone hopen hdata hdec haccepts
    refine ⟨q, hserve, iff_of_true hin ⟨?_, haccepts.free⟩⟩
    rcases haccepts.known with hnew | hknown
    · exact absurd (List.mem_map_of_mem hu) hnew
    · exact hw.password_eq hu hknown
  · have hdeclines : R.config.Declines L accounts w := by
      intro d' hdec'
      cases hdec.symm.trans hdec'
      exact haccepts
    obtain ⟨useAfterFree, hserve⟩ :=
      Room.serve_declines (i := i) hL hw hundone hopen hdata hdeclines
    refine ⟨_, hserve, iff_of_false (Room.not_logsIn_of_logsOut hr Room.logsOut_disconnect) ?_⟩
    rintro ⟨rfl, hfree⟩
    exact haccepts ⟨hp, hw.valid _ hu, hfree, .inr hu⟩

/-- In the state `c` the user `u` has an account with the password `p`: this is what the file says
of `u`, what `receive` compares the passwords of `u` with, and what a client that presents the name
`u` needs for it, while nobody else has the name. -/
structure Config.HasAccount (L : Library) (c : Config) (u p : Bytes) : Prop where
  stored : ∃ config, L.yamlLoad c.server.userdata = some config ∧
    config.subscript u = .ok (accountNode p)
  compared : ∀ (w : World) (q : Bytes) (client : Sock) (i : ℕ) (m : Machine),
    m.server.userdata = c.server.userdata →
    (authenticate L w u q client i).run m =
      if q = p then (nick w u client i).run m else (refusePassword w client i).run m
  decides : ∀ i r w d, c.row? i = some r → r.status = .undone → w.status ≠ .disconnected →
    w.data ≠ [] → L.rsaDecrypt w.data = some d → username d = u →
    ∃ m, (Event.code L (.receive i w)).run c.machine = .ok ((), m) ∧
      (c.LogsIn m.config i r u ↔ password d = p ∧ u ∉ c.server.clientidArray)

lemma Room.hasAccount (hL : YamlLaws L) (hw : Written L R.userdata accounts)
    (hu : (u, p) ∈ accounts) (hp : p ≠ []) : R.config.HasAccount L u p where
  stored := by
    obtain ⟨config, hload, ⟨-, hmem⟩ | ⟨p', hsub, hmem⟩⟩ := hw.lookup hL u
    · exact absurd (List.mem_map_of_mem hu) hmem
    · cases hw.password_eq hu hmem
      exact ⟨config, hload, hsub⟩
  compared := fun w q client i m hm => hw.authenticate_run hL hu w q client i hm
  decides := by
    rintro i r w d hr hundone hopen hdata hdec rfl
    rw [Room.config_row?] at hr
    obtain ⟨q, hserve, hlogsIn⟩ := Room.logsIn_iff hL hw hu hp hr hundone hopen hdata hdec
    exact ⟨q.machine, by rw [Room.code_receive_run hr, hserve]; rfl, hlogsIn⟩

/-- From an empty `userdata.yml` on, the file is always that of the accounts registered so far,
under distinct valid names, and every user registered so far has the account. -/
theorem accounts_persist (L : Library) (hL : YamlLaws L) {steps : List (Step Config Event Obs)}
    {c : Config} (h : (server L).Run (Config.init []) steps c) :
    Written L c.server.userdata (registrationsIn steps) ∧
      ∀ st ∈ steps, ∀ u p, .registered u p ∈ st.obs.acts → c.HasAccount L u p := by
  obtain ⟨rsteps, R, hrun, rfl, rfl⟩ := run_lift h
  have hw : Written L R.userdata (registrationsIn rsteps) := by
    simpa using Room.written_of_run hL .nil hrun
  rw [registrationsIn_map]
  refine ⟨hw, ?_⟩
  intro st hst u p hact
  obtain ⟨rst, hrst, rfl⟩ := List.mem_map.mp hst
  have hregistered : (u, p) ∈ registrations rst.obs.acts := mem_registrations.mpr hact
  have hstep : Room.Step L rst.pre rst.event rst.obs rst.post := (hrun.of_mem hrst).2
  exact Room.hasAccount hL hw (List.mem_flatMap.mpr ⟨rst, hrst, hregistered⟩)
    (hstep.password_ne hregistered)

/-- Two users register, the first leaves and comes back. -/
def Toy.comingBack : List Event :=
  [joins 1, joins 2, polls 0 (logsIn (ascii "alice") (ascii "pw")) 5,
    polls 1 (logsIn (ascii "bob") (ascii "b b")) 6, leaves 0, joins 1,
    polls 1 (logsIn (ascii "alice") (ascii "pw")) 9]

theorem accounts_persist_toy :
    ∃ steps c, play toy (Config.init []) Toy.comingBack = some (steps, c) ∧
      registrationsIn steps = [(ascii "alice", ascii "pw"), (ascii "bob", ascii "b b")] ∧
      Written toy c.server.userdata (registrationsIn steps) ∧
      ∀ st ∈ steps, ∀ u p, .registered u p ∈ st.obs.acts → c.HasAccount toy u p := by
  have hsome : (play toy (Config.init []) Toy.comingBack).map (registrationsIn ·.1) =
      some [(ascii "alice", ascii "pw"), (ascii "bob", ascii "b b")] := by decide +kernel
  obtain ⟨⟨steps, c⟩, hplay, hregs⟩ := Option.map_eq_some_iff.mp hsome
  exact ⟨steps, c, hplay, hregs, accounts_persist toy toy_yamlLaws (run_of_play hplay)⟩

end OpenSimp
