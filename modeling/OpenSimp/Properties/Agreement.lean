import OpenSimp.Properties.Credentials
import OpenSimp.Properties.Sessions

/-!
# The handshake of the C++ client with the server

The C++ client runs `ClientNetwork::handshake` on whatever it reads until it has a key. It counts
messages where the server keeps a status, so the two agree on the server key as long as the server
sends it nothing but the handshake, which is so exactly when no `msg` command addresses the client
while it is still exchanging keys.
-/

namespace OpenSimp

open Bytes FaultState System

namespace Cpp

/-- The C++ client during its handshake, in which nothing is typed and the connection stays open. -/
def program (L : Library) (user : User) : Program ClientNetwork Empty where
  read _ seed data client :=
    if client.hasHandshook then none else (handshake L user seed data client).toOption
  submit _ message _ := message.elim
  quit _ := false

abbrev Session : Type := OpenSimp.Session ClientNetwork Empty

def Session.init (userdata : Bytes) : Session := OpenSimp.Session.init ClientNetwork.init userdata

/-- The server with a C++ client on the connection `n`. -/
def session (L : Library) (user : User) (n : ℕ) : System Session (Session.Action Empty) Obs :=
  OpenSimp.session L (program L user) n

end Cpp

/-- A client that has a key has the server's, and the server takes it for `Done`. -/
def Session.Agrees (s : Cpp.Session) (n : ℕ) : Prop :=
  s.client.status = .receivedAESKey →
    s.client.aesKey = serverKey ∧ s.server.stageOf n = .present .done

/-- What the client relies on: the server reads the text of its key as the key, and its private key
decrypts what is encrypted under that key. -/
structure Cpp.User.Lawful (user : Cpp.User) (L : Library) : Prop where
  nul_not_mem : (0 : Byte) ∉ user.publicKey
  bigInt : L.bigInt user.publicKey = some user.modulus
  decrypts : ∀ {plaintext : Bytes} {ciphertext : Bytes → Bytes} (seed : Bytes),
    L.rsaEncrypt user.modulus plaintext = some ciphertext →
    user.rsaDecrypt (ciphertext seed) = some plaintext

variable {L : Library} {user : Cpp.User} {n : ℕ}

/-- The server reads no other key than the client's. -/
lemma Cpp.User.Lawful.eq_modulus (hL : user.Lawful L) {m : ℤ}
    (h : KeyText L user.publicKey m) : m = user.modulus :=
  h.eq_of_bigInt (cstr_of_nul_not_mem hL.nul_not_mem) hL.bigInt

/-! ### The client's part -/

namespace Cpp

variable {client client' : ClientNetwork} {seed data : Bytes} {sent : List Bytes}

lemma length_sendRaw_le (sent : Bytes) : (sendRaw sent).length ≤ 1 := by
  rw [sendRaw]
  split_ifs <;> simp

lemma mem_sendRaw {sent : Bytes} (h : data ∈ sendRaw sent) : data = sent := by
  rw [sendRaw] at h
  split_ifs at h
  · exact List.mem_singleton.mp h
  · cases h

/-- The first message is answered with the credentials. -/
lemma handshake_hasntBegun (hstatus : client.status = .hasntBegun)
    (h : handshake L user seed data client = .ok (client', sent)) :
    client'.status = .sentCredientials ∧ sent.length ≤ 1 := by
  obtain ⟨hstatus', a, -, rfl⟩ := handshake_credits hstatus h
  exact ⟨hstatus', length_sendRaw_le a⟩

/-- The second message, whatever it is, is answered with the client's public key. -/
lemma handshake_sentCredientials (hstatus : client.status = .sentCredientials)
    (h : handshake L user seed data client = .ok (client', sent)) :
    client'.status = .sentPubKey ∧ sent = sendRaw user.publicKey := by
  simp only [handshake, hstatus] at h
  cases h
  exact ⟨rfl, rfl⟩

/-- The third message is decrypted as the server's key. -/
lemma handshake_sentPubKey (hstatus : client.status = .sentPubKey)
    (h : handshake L user seed data client = .ok (client', sent)) :
    client'.status = .receivedAESKey ∧ client'.hasHandshook = true ∧
      user.rsaDecrypt data = some client'.aesKey ∧ sent = [] := by
  simp only [handshake, hstatus] at h
  cases hdecrypt : user.rsaDecrypt data with
  | none => rw [hdecrypt] at h; cases h
  | some v =>
    rw [hdecrypt] at h
    cases h
    exact ⟨rfl, rfl, rfl, rfl⟩

lemma program_read {iv : Bytes}
    (h : (program L user).read iv seed data client = some (client', sent)) :
    client.hasHandshook = false ∧ handshake L user seed data client = .ok (client', sent) := by
  change (if client.hasHandshook then none else (handshake L user seed data client).toOption) =
    _ at h
  split_ifs at h with hrunning
  refine ⟨Bool.eq_false_of_not_eq_true hrunning, ?_⟩
  cases hclient : handshake L user seed data client with
  | error fault => rw [hclient] at h; cases h
  | ok result =>
    rw [hclient] at h
    exact congrArg _ (Option.some.inj h)

end Cpp

/-! ### Both parts together -/

/-- The status of a client that logs in. -/
def Cpp.HandshakeStatus.awaiting : Awaited → Cpp.HandshakeStatus
  | .publicKey => .hasntBegun
  | .keyRequest => .sentCredientials
  | .aesKey => .sentPubKey

lemma Cpp.HandshakeStatus.awaiting_ne_receivedAESKey (awaited : Awaited) :
    awaiting awaited ≠ .receivedAESKey := by
  cases awaited <;> simp [awaiting]

/-- How far a session is: the client logs in, or it has the server's key. -/
inductive Phase (L : Library) (user : Cpp.User) :
    Stage → Cpp.ClientNetwork → List Packet → List Bytes → Prop where
  | login {stage : Stage} {awaited : Awaited} {client : Cpp.ClientNetwork} {toClient : List Packet}
      {toServer : List Bytes}
      (h : Login L user.modulus user.publicKey stage awaited toClient toServer)
      (hstatus : client.status = .awaiting awaited) : Phase L user stage client toClient toServer
  | agreed {client : Cpp.ClientNetwork} {toClient : List Packet}
      (hstatus : client.status = .receivedAESKey) (hhandshook : client.hasHandshook = true)
      (hkey : client.aesKey = serverKey) : Phase L user (.present .done) client toClient []

variable {stage stage' : Stage} {client client' : Cpp.ClientNetwork} {poll : Poll}
  {toClient packets : List Packet} {toServer toServer' : List Bytes}

/-- A move of the server takes the session to a phase. -/
lemma Phase.moves (hL : user.Lawful L) (h : Phase L user stage client toClient toServer)
    (hmoves : stage.Moves L poll packets stage') {left : Prop}
    (hleft : ¬ left) (htakes : poll.Takes left toServer toServer') :
    Phase L user stage' client (toClient ++ packets) toServer' := by
  cases h with
  | login h hstatus => exact .login (h.moves (fun m => hL.eq_modulus) hmoves hleft htakes) hstatus
  | agreed hstatus hhandshook hkey =>
    obtain ⟨rfl, rfl⟩ := htakes.nil hleft
    cases hmoves with
    | stays => exact .agreed hstatus hhandshook hkey
    | relays => exact .agreed hstatus hhandshook hkey
    | drops hpoll => exact absurd rfl hpoll

/-- A call of the client takes the session to a phase. -/
lemma Phase.handshake {packet : Packet} {iv seed data : Bytes} {sent : List Bytes}
    (hL : user.Lawful L) (h : Phase L user stage client (packet :: toClient) toServer)
    (hdata : packet.wire L iv = some data) (hrunning : client.hasHandshook = false)
    (hclient : Cpp.handshake L user seed data client = .ok (client', sent)) :
    Phase L user stage client' toClient (toServer ++ sent) := by
  cases h with
  | login h hstatus =>
    cases h with
    | greeted =>
      obtain ⟨hstatus', hlength⟩ := Cpp.handshake_hasntBegun hstatus hclient
      exact .login (.authenticating hlength) hstatus'
    | asked =>
      obtain ⟨hstatus', rfl⟩ := Cpp.handshake_sentCredientials hstatus hclient
      refine .login (.answering (Cpp.length_sendRaw_le _) ?_) hstatus'
      exact fun data hmem => Cpp.mem_sendRaw hmem
    | keyed hct =>
      obtain ⟨hstatus', hhandshook, hdecrypt, rfl⟩ := Cpp.handshake_sentPubKey hstatus hclient
      cases hdata
      rw [hL.decrypts _ hct, Option.some.injEq] at hdecrypt
      exact .agreed hstatus' hhandshook hdecrypt.symm
  | agreed _ hhandshook => cases hrunning.symm.trans hhandshook

/-- Only one phase has a client with a key. -/
lemma Phase.agrees (h : Phase L user stage client toClient toServer)
    (hreceived : client.status = .receivedAESKey) :
    client.aesKey = serverKey ∧ stage = .present .done := by
  cases h with
  | agreed _ _ hkey => exact ⟨hkey, rfl⟩
  | login _ hstatus =>
    exact absurd (hstatus.symm.trans hreceived) (Cpp.HandshakeStatus.awaiting_ne_receivedAESKey _)

/-! ### Runs -/

variable {userdata : Bytes} {s : Cpp.Session}
  {steps : List (System.Step Cpp.Session (Session.Action Empty) Obs)}

/-- Along a run in which its handshake is not intruded on, the session goes through the phases. -/
lemma phase_of_run (hL : user.Lawful L)
    (h : (Cpp.session L user n).Run (Cpp.Session.init userdata) steps s)
    (hquiet : ∀ st ∈ serverSteps steps, ¬ st.event.Intrudes L n st.pre) :
    Phase L user (s.server.stageOf n) s.client s.toClient s.toServer := by
  induction h with
  | nil => exact .login .before rfl
  | @snoc steps s s' e o hrun hstep ih =>
    rw [serverSteps_append] at hquiet
    have hphase := ih fun st hst => hquiet st (List.mem_append_left _ hst)
    cases hstep with
    | @server e o c toServer hstep htakes =>
      have hlast := hquiet ⟨s.server, e, o, c⟩ (List.mem_append_right _ (List.mem_singleton_self _))
      have hmoves := moves_of_step (server_run hrun).reachable hstep hlast
      exact hphase.moves hL hmoves Bool.false_ne_true htakes
    | reads hpacket hdata hclient =>
      rw [hpacket] at hphase
      obtain ⟨hrunning, hclient⟩ := Cpp.program_read hclient
      exact hphase.handshake hL hdata hrunning hclient
    | @types nonceRnd message => exact message.elim

/-- In every state of a run of a session the server has sent on a connection `m` exactly what the
stage of its handshake asks for, and the client agrees with the server if the connection is its
own, if and only if no `msg` command addresses the client of the connection while it is still
exchanging keys. -/
theorem handshake_agrees_iff (L : Library) (hL : user.Lawful L) (n m : ℕ)
    (h : (Cpp.session L user n).Run (Cpp.Session.init userdata) steps s) :
    (∀ before after s', steps = before ++ after →
        (Cpp.session L user n).Run (Cpp.Session.init userdata) before s' →
        s'.server.Handshaken L (serverSteps before) m ∧ (m = n → s'.Agrees n)) ↔
      ∀ st ∈ serverSteps steps, ¬ st.event.Intrudes L m st.pre := by
  constructor
  · intro hall st hst hintrudes
    obtain ⟨sst, hsst, e, he, rfl⟩ := View.mem_steps.mp hst
    obtain ⟨before, after, rfl⟩ := List.append_of_mem hsst
    obtain ⟨hpre, hstep⟩ := h.split rfl
    have hserver := (server_run h).of_mem hst
    obtain ⟨pre, action, o, post⟩ := sst
    cases action with
    | reads | types => cases he
    | server e =>
      cases he
      have hpost := (hall (before ++ [_]) after post (by simp) (hpre.snoc hstep)).1
      rw [serverSteps_append] at hpost
      exact not_handshaken_of_intrudes (server_run hpre).reachable hserver.2 hintrudes hpost
  · rintro hquiet before after s' rfl hrun
    have hbefore : ∀ st ∈ serverSteps before, ¬ st.event.Intrudes L m st.pre := by
      intro st hst
      apply hquiet st
      rw [serverSteps_append]
      exact List.mem_append_left _ hst
    constructor
    · exact handshaken_of_quiet (server_run hrun) hbefore
    · rintro rfl
      exact (phase_of_run hL hrun hbefore).agrees

namespace Toy

/-- Alice, with a modulus of two hundred digits. -/
def alice : Cpp.User where
  uname := ascii "alice"
  passwd := ascii "pw"
  modulus := 10 ^ 200 - 1
  publicKey := modulus
  rsaDecrypt := rsaDecrypt

lemma alice_lawful : alice.Lawful toy where
  nul_not_mem := by decide
  bigInt := by decide +kernel
  decrypts := fun seed h => rsaDecrypt_rsaEncrypt h seed

/-- Plays a session of Alice's client, on the connection 0. -/
def alicePlays := Session.play toy (Cpp.program toy alice) 0 (Cpp.Session.init [])

/-- Alice's client and Bob have logged in, and Bob has sent his key. -/
def greets : List (Session.Action Empty) :=
  [.server (joins 1), .server (joins 2), reads,
    .server (polls 0 (logsIn (ascii "alice") (ascii "pw")) 5),
    .server (polls 1 (logsIn (ascii "bob") (ascii "pw")) 5), .server (polls 1 modulus 10)]

/-- Alice's client gets its key while Bob is chatting. -/
def chats : List (Session.Action Empty) :=
  greets ++ [.server (polls 1 (seals (ascii "0hi")) 1000), reads, .server (polls 0 modulus 1000),
    .server (polls 1 (seals (ascii "0hi alice")) 2000), reads]

/-- Bob sends a direct message to Alice while her client is still exchanging keys. -/
def intrudes : List (Session.Action Empty) :=
  greets ++ [.server (polls 1 (seals (ascii "5msg alice hi")) 1000)]

end Toy

theorem handshake_agrees_iff_toy :
    ∃ steps s, Toy.alicePlays Toy.chats = some (steps, s) ∧
      s.client.status = .receivedAESKey ∧ s.server.Handshaken toy (serverSteps steps) 0 ∧
      s.Agrees 0 := by
  have hsome : (Toy.alicePlays Toy.chats).map (fun x =>
      (x.2.client.status, (serverSteps x.1).any (Toy.handlesCommand toy))) =
      some (.receivedAESKey, false) := by decide +kernel
  obtain ⟨⟨steps, s⟩, hplay, heq⟩ := Option.map_eq_some_iff.mp hsome
  obtain ⟨hstatus, hany⟩ := Prod.mk.inj heq
  have hrun := Session.run_of_play hplay
  have hall := (handshake_agrees_iff toy Toy.alice_lawful 0 0 hrun).mpr
    (Toy.not_intrudes_of_not_handlesCommand hany)
  obtain ⟨hhandshaken, hagrees⟩ := hall steps [] s (List.append_nil steps).symm hrun
  exact ⟨steps, s, hplay, hstatus, hhandshaken, hagrees rfl⟩

/-- A direct message reaches a client before the server key. -/
theorem not_handshake_agrees_toy :
    ¬ ∀ steps s, (Cpp.session toy Toy.alice 0).Run (Cpp.Session.init []) steps s →
      s.server.Handshaken toy (serverSteps steps) 0 ∧ s.Agrees 0 := by
  let text := ascii "[alice -> bob]: hi" ++ List.replicate (Executor.slots - 2) space
  have hsome : (Toy.alicePlays Toy.intrudes).map (fun x =>
      (x.2.server.stageOf 0, (serverSteps x.1).flatMap (sentOn 0))) =
      some (.present .keyReceived, [greeting toy, keyRequest, directPacket text]) := by
    decide +kernel
  obtain ⟨⟨steps, s⟩, hplay, heq⟩ := Option.map_eq_some_iff.mp hsome
  obtain ⟨hstage, hsent⟩ := Prod.mk.inj heq
  intro hall
  have hprogress := (hall steps s (Session.run_of_play hplay)).1
  rw [Config.Handshaken, hstage, hsent] at hprogress
  exact hprogress.not_sealed (List.mem_of_getElem? (rfl : _[2]? = _)) trivial

end OpenSimp
