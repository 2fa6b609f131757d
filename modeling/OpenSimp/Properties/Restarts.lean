import OpenSimp.Properties.Logins

/-!
# Accounts across restarts

A `Host` has a file and at most one server process, which is started and stopped any number of
times. The connections, keys and aliases of a process are gone when it stops, and the accounts of
all processes are those of the file: no name is ever registered twice, the file always loads, and an
account decides the logins of its user in every process after the one that registered it.
-/

namespace OpenSimp

open Bytes FaultState System ServerNetwork

/-- `userdata.yml`, if it is there, and the server that is running. -/
structure Host where
  userdata : Option Bytes
  process : Option Config

namespace Host

inductive Action where
  | starts
  | serves (e : Event)
  | stops

/-- A host without the file. -/
def init : Host := ⟨none, none⟩

/-- The steps of a host. A process is stopped between two events. -/
inductive Step (L : Library) (x : Host) : Action → Obs → Host → Prop where
  | starts {text : Bytes} (hprocess : x.process = none)
      (hopen : openUserdata L x.userdata = .ok text) :
      Step L x .starts ⟨[], false, false⟩ ⟨some text, some (Config.init text)⟩
  | serves {c c' : Config} {e : Event} {o : Obs} (hprocess : x.process = some c)
      (hstep : (server L).step c e o c') :
      Step L x (.serves e) o ⟨some c'.server.userdata, some c'⟩
  | stops {c : Config} (hprocess : x.process = some c) :
      Step L x .stops ⟨[], false, false⟩ ⟨x.userdata, none⟩

end Host

def host (L : Library) : System Host Host.Action Obs := ⟨Host.Step L⟩

/-- The accounts that all processes of a run have registered. -/
def accountsIn (steps : List (Step Host Host.Action Obs)) : List (Bytes × Bytes) :=
  steps.flatMap fun st => registrations st.obs.acts

/-- The file of a host is that of some accounts, with which its process works. -/
structure Host.Keeps (L : Library) (x : Host) (accounts : List (Bytes × Bytes)) : Prop where
  absent : x.userdata = none → accounts = []
  written : ∀ text, x.userdata = some text → Written L text accounts
  process : ∀ c, x.process = some c → x.userdata = some c.server.userdata ∧
    ∃ text, (server L).Reachable (Config.init text) c
  passwords : ∀ a ∈ accounts, a.2 ≠ []

variable {L : Library} {x : Host} {R R' : Room} {e : Event} {o : Obs} {w : World} {i : ℕ} {r : Row}
  {accounts : List (Bytes × Bytes)} {d u p : Bytes}

lemma Host.Keeps.step (hL : YamlLaws L) (h : x.Keeps L accounts) {action : Host.Action} {x' : Host}
    (hstep : Host.Step L x action o x') : x'.Keeps L (accounts ++ registrations o.acts) := by
  cases hstep with
  | @starts text hprocess hopen =>
    rw [show registrations [] = [] from rfl, List.append_nil]
    have hwritten : Written L text accounts := by
      cases huserdata : x.userdata with
      | none =>
        rw [huserdata] at hopen
        cases hopen
        rw [h.absent huserdata]
        exact .nil
      | some text' =>
        rw [huserdata, openUserdata] at hopen
        cases hload : L.yamlLoad text' with
        | none => rw [hload] at hopen; cases hopen
        | some config =>
          rw [hload] at hopen
          cases hopen
          exact h.written text huserdata
    refine ⟨fun hnone => (by cases hnone), ?_, ?_, h.passwords⟩
    · intro text' heq
      cases heq
      exact hwritten
    · intro c heq
      cases heq
      exact ⟨rfl, text, .refl⟩
  | @serves c c' e _ hprocess hserver =>
    obtain ⟨huserdata, text, hreach⟩ := h.process c hprocess
    have hreach' := hreach.snoc hserver
    obtain ⟨R, -, rfl⟩ := reachable_lift hreach
    obtain ⟨R', rfl, hroom⟩ := room_embeds L R e o c' hserver
    have hroom : Room.Step L R e o R' := hroom
    refine ⟨fun hnone => (by cases hnone), ?_, ?_, ?_⟩
    · intro text' heq
      cases heq
      exact hroom.written hL (h.written _ huserdata)
    · intro c heq
      cases heq
      exact ⟨rfl, text, hreach'⟩
    · rintro ⟨u, p⟩ ha
      rcases List.mem_append.mp ha with ha | ha
      · exact h.passwords _ ha
      · exact hroom.password_ne ha
  | stops hprocess =>
    rw [show registrations [] = [] from rfl, List.append_nil]
    exact ⟨h.absent, h.written, fun c hc => (by cases hc), h.passwords⟩

lemma Host.keeps_of_run (hL : YamlLaws L) {steps : List (System.Step Host Host.Action Obs)}
    (h : (host L).Run Host.init steps x) : x.Keeps L (accountsIn steps) := by
  induction h with
  | nil =>
    exact ⟨fun _ => rfl, fun text h => (by cases h), fun c h => (by cases h),
      fun a ha => absurd ha List.not_mem_nil⟩
  | snoc hrun hstep ih =>
    rw [accountsIn, List.flatMap_append, List.flatMap_singleton]
    exact ih.step hL hstep

/-! ### Starting and logging in -/

/-- The file can be opened. -/
lemma Host.Keeps.exists_open (hL : YamlLaws L) (h : x.Keeps L accounts) :
    ∃ text, openUserdata L x.userdata = .ok text := by
  cases huserdata : x.userdata with
  | none => exact ⟨[], rfl⟩
  | some text =>
    obtain ⟨config, hload, -⟩ := (h.written text huserdata).lookup hL []
    refine ⟨text, ?_⟩
    rw [openUserdata, hload]
    rfl

/-- However often the server is stopped and started, it can be started again, no name is registered
twice, and an account decides the logins of its user: while its name is free, whoever sends its
credentials gets the name, and whoever sends the name with another password does not. -/
theorem accounts_survive_restarts (L : Library) (hL : YamlLaws L)
    {steps : List (System.Step Host Host.Action Obs)} (h : (host L).Run Host.init steps x) :
    (x.process = none → ∃ o x', (host L).step x .starts o x') ∧
      ((accountsIn steps).map Prod.fst).Nodup ∧
      ∀ c, x.process = some c → Written L c.server.userdata (accountsIn steps) ∧
        ∀ i r w d p, c.row? i = some r → r.status = .undone → w.status ≠ .disconnected →
          w.data ≠ [] → L.rsaDecrypt w.data = some d → (username d, p) ∈ accountsIn steps →
          username d ∉ c.server.clientidArray →
          ∃ m, (Event.code L (.receive i w)).run c.machine = .ok ((), m) ∧
            (c.LogsIn m.config i r (username d) ↔ password d = p) := by
  have hkeeps := Host.keeps_of_run hL h
  refine ⟨?_, ?_, ?_⟩
  · intro hprocess
    obtain ⟨text, hopen⟩ := hkeeps.exists_open hL
    exact ⟨_, _, .starts hprocess hopen⟩
  · cases huserdata : x.userdata with
    | none =>
      rw [hkeeps.absent huserdata]
      exact List.nodup_nil
    | some text => exact (hkeeps.written text huserdata).nodup
  · intro c hprocess
    obtain ⟨huserdata, text, hreach⟩ := hkeeps.process c hprocess
    have hw := hkeeps.written _ huserdata
    refine ⟨hw, ?_⟩
    intro i r w d p hr hundone hopen hdata hdec hu hfree
    obtain ⟨R, -, rfl⟩ := reachable_lift hreach
    rw [Room.config_row?] at hr
    obtain ⟨q, hserve, hlogsIn⟩ :=
      Room.logsIn_iff hL hw hu (hkeeps.passwords _ hu) hr hundone hopen hdata hdec
    exact ⟨q.machine, by rw [Room.code_receive_run hr, hserve]; rfl,
      hlogsIn.trans (and_iff_left hfree)⟩

namespace Host

/-- Takes one step of a host, if it is possible. -/
def fire (L : Library) (x : Host) : Action → Option (System.Step Host Action Obs)
  | .starts =>
    match x.process, openUserdata L x.userdata with
    | none, .ok text =>
      some ⟨x, .starts, ⟨[], false, false⟩, ⟨some text, some (Config.init text)⟩⟩
    | _, _ => none
  | .serves e => do
    let c ← x.process
    let st ← OpenSimp.fire L c e
    pure ⟨x, .serves e, st.obs, ⟨some st.post.server.userdata, some st.post⟩⟩
  | .stops => do
    let _ ← x.process
    pure ⟨x, .stops, ⟨[], false, false⟩, ⟨x.userdata, none⟩⟩

lemma fire_eq_some {action : Action} {st : System.Step Host Action Obs}
    (h : fire L x action = some st) :
    st.pre = x ∧ st.event = action ∧ (host L).step x action st.obs st.post := by
  cases action with
  | starts =>
    rw [fire] at h
    split at h
    · next text hprocess hopen =>
      cases h
      exact ⟨rfl, rfl, .starts hprocess hopen⟩
    · cases h
  | serves e =>
    obtain ⟨c, hprocess, hfire⟩ := Option.bind_eq_some_iff.mp h
    obtain ⟨st', hst', hst⟩ := Option.bind_eq_some_iff.mp hfire
    obtain ⟨hpre, hevent, hstep⟩ := OpenSimp.fire_eq_some hst'
    obtain ⟨pre, e', o, post⟩ := st'
    cases hpre
    cases hevent
    cases hst
    exact ⟨rfl, rfl, .serves hprocess hstep⟩
  | stops =>
    obtain ⟨c, hprocess, h⟩ := Option.bind_eq_some_iff.mp h
    cases h
    exact ⟨rfl, rfl, .stops hprocess⟩

end Host

/-- Alice registers, and comes back when the server has been started again. -/
def Toy.comesBack : List Host.Action :=
  [.starts, .serves (joins 1), .serves (polls 0 (logsIn (ascii "alice") (ascii "pw")) 5), .stops,
    .starts, .serves (joins 2)]

theorem accounts_survive_restarts_toy :
    ∃ steps x c m r, System.play (Host.fire toy) Host.init Toy.comesBack = some (steps, x) ∧
      x.process = some c ∧ accountsIn steps = [(ascii "alice", ascii "pw")] ∧
      (Event.code toy (Toy.polls 0 (Toy.logsIn (ascii "alice") (ascii "pw")) 9)).run c.machine =
        .ok ((), m) ∧
      c.LogsIn m.config 0 r (ascii "alice") := by
  have hsome : ((System.play (Host.fire toy) Host.init Toy.comesBack).bind fun x =>
      x.2.process.bind fun c => (c.row? 0).map fun r =>
        (accountsIn x.1, c.server.clientidArray, r.status)) =
      some ([(ascii "alice", ascii "pw")], [sentinel], .undone) := by decide +kernel
  obtain ⟨⟨steps, x⟩, hplay, hrest⟩ := Option.bind_eq_some_iff.mp hsome
  obtain ⟨c, hprocess, hrest⟩ := Option.bind_eq_some_iff.mp hrest
  obtain ⟨r, hr, heq⟩ := Option.map_eq_some_iff.mp hrest
  simp only [Prod.mk.injEq] at heq
  obtain ⟨haccounts, hids, hundone⟩ := heq
  have hrun : (host toy).Run Host.init steps x :=
    System.run_of_play (fun _ _ _ hfire => Host.fire_eq_some hfire) hplay
  have hdec : toy.rsaDecrypt (Toy.world .done (Toy.logsIn (ascii "alice") (ascii "pw")) 9).data =
      some (ascii "alice" ++ [separator] ++ ascii "pw") := by decide +kernel
  have huname : username (ascii "alice" ++ [separator] ++ ascii "pw") = ascii "alice" := by
    decide +kernel
  obtain ⟨-, -, hlogins⟩ := accounts_survive_restarts toy toy_yamlLaws hrun
  obtain ⟨m, hcode, hlogsIn⟩ := (hlogins c hprocess).2 0 r
    (Toy.world .done (Toy.logsIn (ascii "alice") (ascii "pw")) 9) _ (ascii "pw") hr hundone
    (by decide) (by decide +kernel) hdec
    (by rw [haccounts, huname]; exact List.mem_singleton_self _) (by rw [hids, huname]; decide)
  exact ⟨steps, x, c, m, r, hplay, hprocess, haccounts, hcode,
    huname ▸ hlogsIn.mpr (by decide +kernel)⟩

end OpenSimp
