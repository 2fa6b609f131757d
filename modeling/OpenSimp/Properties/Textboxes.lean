import OpenSimp.Properties.Phases

/-!
# What the Rust client sends and shows

As long as its login is not intruded on, the Rust client is at work with the server's key, the
server reads from it what its user types, and what the others are sent of it while it is `Done`
stands in its own text box.
-/

namespace OpenSimp.Rust

open Bytes FaultState System ServerNetwork
open scoped List

variable {L : Library} {user : User} {n : ℕ}

/-! ### What the client has sent -/

/-- A message with the credentials of the user. -/
def User.LogsIn (user : User) (L : Library) (login : Bytes) : Prop :=
  L.rsaDecrypt login = some (credits user.uname user.passwd)

/-- The plaintexts of what has been typed. -/
def plaintextsOf (user : User) (typed : List (List Char)) : List Bytes :=
  (typing user.uname false typed).filterMap Prod.snd

/-- What a client has sent, and what its user has typed. -/
inductive Wrote (L : Library) (user : User) :
    Status → Bool → List Bytes → List (List Char) → Prop where
  | login : Wrote L user .login false [] []
  | spb {login : Bytes} (hlogin : user.LogsIn L login) : Wrote L user .spb false [login] []
  | aes {login key : Bytes} (hlogin : user.LogsIn L login) :
      Wrote L user .aes false [login, key] []
  | running {login key k : Bytes} {packets : List Bytes} {typed : List (List Char)}
      (hlogin : user.LogsIn L login)
      (hopens : List.Forall₂ (Opens L) (plaintextsOf user typed) packets)
      (hstays : ∀ message ∈ typed, trim message ≠ ".leave".toList) :
      Wrote L user (.running k) (uwuified false typed) (login :: key :: packets) typed
  | quit {login key : Bytes} {uwuify : Bool} {packets : List Bytes} {typed : List (List Char)}
      (hlogin : user.LogsIn L login)
      (hopens : List.Forall₂ (Opens L) (plaintextsOf user typed) packets) :
      Wrote L user .quit uwuify (login :: key :: packets) typed

section Writing

variable {s : Session} {client : Client} {sent : List Bytes} {typed : List (List Char)}

lemma Wrote.follows {status : Status} {uwuify : Bool} (h : Wrote L user status uwuify sent typed) :
    Follows L user.uname user.passwd (plaintextsOf user typed) sent := by
  have hnil : List.Forall₂ (Opens L) (plaintextsOf user []) [] := .nil
  cases h with
  | login => exact ⟨fun login h => (by cases h), [], hnil, List.prefix_rfl⟩
  | spb hlogin =>
    exact ⟨fun login h => (by cases h; exact hlogin), [], hnil, List.prefix_rfl⟩
  | aes hlogin =>
    exact ⟨fun login h => (by cases h; exact hlogin), [], hnil, List.prefix_rfl⟩
  | running hlogin hopens | quit hlogin hopens =>
    exact ⟨fun login h => (by cases h; exact hlogin), _, hopens, List.prefix_rfl⟩

/-- A read adds to what has been sent. -/
lemma Wrote.reads (hL : user.Lawful L) {packet : OpenSimp.Packet} {toClient : List OpenSimp.Packet}
    {toServer : List Bytes} {stage : Stage} {iv seed data : Bytes}
    (h : Wrote L user s.client.status s.client.uwuify s.sent s.typed)
    (hphase : Phase L user stage s.client.status (packet :: toClient) toServer)
    (hdata : packet.wire L iv = some data)
    (hclient : read L user seed data s.client = some (client, sent)) :
    Wrote L user client.status client.uwuify (s.sent ++ sent) s.typed := by
  generalize hstatus : s.client.status = status at h hphase
  generalize huwuify : s.client.uwuify = uwuify at h
  generalize s.sent = before at h ⊢
  generalize s.typed = typed at h ⊢
  cases h with
  | login =>
    obtain ⟨n, ciphertext, hn, hct, rfl, rfl⟩ := read_login hstatus hclient
    -- the client has read the server's public key
    cases hphase.eq_greeting
    cases hdata
    obtain ⟨n', ciphertext', hn', hct', hlogin⟩ := hL.exists_makeRsaPubkey
    cases hn'.symm.trans hn
    cases hct'.symm.trans hct
    rw [huwuify]
    exact .spb (hlogin seed)
  | spb hlogin =>
    obtain ⟨rfl, rfl⟩ := read_spb hstatus hclient
    rw [huwuify]
    exact .aes hlogin
  | aes hlogin =>
    obtain ⟨hex, key, -, -, rfl, rfl⟩ := read_aes hstatus hclient
    rw [huwuify]
    exact .running hlogin .nil fun message hmem => absurd hmem List.not_mem_nil
  | running hlogin hopens hstays =>
    obtain ⟨pt, packet', -, -, rfl, rfl⟩ := read_running hstatus hclient
    rw [hstatus, huwuify, List.append_nil]
    exact .running hlogin hopens hstays
  | quit =>
    rw [read, hstatus] at hclient
    split_ifs at hclient

/-- What is typed is encrypted for the server. -/
lemma opens_aesEncrypt (hC : CipherLaws L user.hexDecode) {key nonceRnd : Bytes}
    (hkey : L.hexDecode serverKey = some key) (hnonce : nonceRnd.length = 12) (d : Bytes) :
    Opens L d (aesEncrypt L key nonceRnd d) := by
  obtain ⟨key', hlength, hserver, -⟩ := exists_key hC
  cases hserver.symm.trans hkey
  exact ⟨nonceRnd, decrypt_aesEncrypt hC hlength hkey hnonce d⟩

lemma plaintextsOf_append (hstays : ∀ message ∈ typed, trim message ≠ ".leave".toList)
    (message : List Char) :
    plaintextsOf user (typed ++ [message]) =
      plaintextsOf user typed ++ (sendMessage (uwuified false typed) message).2.toList := by
  rw [plaintextsOf, typing_append user.uname hstays, List.filterMap_append, filterMap_singleton]
  rfl

lemma Wrote.types (hC : CipherLaws L user.hexDecode) {toClient : List OpenSimp.Packet}
    {toServer : List Bytes} {stage : Stage} {nonceRnd : Bytes} {message : List Char}
    (h : Wrote L user s.client.status s.client.uwuify s.sent s.typed)
    (hphase : Phase L user stage s.client.status toClient toServer)
    (hnonce : nonceRnd.length = 12)
    (hclient : submit L user nonceRnd message s.client = some (client, sent)) :
    Wrote L user client.status client.uwuify (s.sent ++ sent) (s.typed ++ [message]) := by
  obtain ⟨key, hstatus, hstatus', huwuify', -, rfl⟩ := submit_eq_some hclient
  rw [hstatus] at h hphase
  generalize huwuify : s.client.uwuify = uwuify at h
  rw [hstatus', huwuify', huwuify]
  generalize s.sent = before at h ⊢
  generalize s.typed = typed at h ⊢
  have hserver : L.hexDecode serverKey = some key := by
    cases hphase with
    | running _ hkey => exact hkey
    | login _ hlogin => exact absurd hlogin.symm (Status.awaiting_ne_running _ _)
  cases h with
  | @running login first _ packets _ hlogin hopens hstays =>
    have hopens' : List.Forall₂ (Opens L) (plaintextsOf user (typed ++ [message])) (packets ++
        ((sendMessage (uwuified false typed) message).2.map
          (aesEncrypt L key nonceRnd)).toList) := by
      rw [plaintextsOf_append hstays]
      refine List.rel_append hopens ?_
      cases (sendMessage (uwuified false typed) message).2 with
      | none => exact .nil
      | some d => exact .cons (opens_aesEncrypt hC hserver hnonce d) .nil
    rw [List.cons_append, List.cons_append]
    by_cases hleave : trim message = ".leave".toList
    · rw [if_pos hleave]
      exact .quit hlogin hopens'
    · rw [if_neg hleave]
      have huwuified : (sendMessage (uwuified false typed) message).1 =
          uwuified false (typed ++ [message]) := by
        rw [uwuified, uwuified, List.foldl_append]
        rfl
      rw [huwuified]
      refine .running hlogin hopens' fun message' hmem => ?_
      rcases List.mem_append.mp hmem with hmem | hmem
      · exact hstays message' hmem
      · rwa [List.mem_singleton.mp hmem]

end Writing

/-! ### Runs -/

/-- The line that the client shows for a plaintext, unless it panics. -/
def lineShown (d : Bytes) : Option Bytes := (parsePacket d).map Packet.line

/-- The session is in a phase, nothing is lost between the two sides, and the text box has a line
for every text that was typed and for every packet that was read. -/
structure Session.InStep (L : Library) (user : User) (n : ℕ)
    (steps : List (System.Step Session Session.Action Obs)) (s : Session) : Prop where
  phase : Phase L user (s.server.stageOf n) s.client.status s.toClient s.toServer
  wrote : Wrote L user s.client.status s.client.uwuify s.sent s.typed
  sent : readsOn n (serverSteps steps) ++ s.toServer = s.sent
  received : s.received ++ s.toClient = (serverSteps steps).flatMap (sentOn n)
  shows_typed : (typing user.uname false s.typed).map Prod.fst <+ s.client.textbox
  shows_received : ∃ lines, List.Forall₂ (fun d line => lineShown d = some line)
    (plaintexts s.received) lines ∧ lines <+ s.client.textbox

section Runs

variable {userdata : Bytes} {s s' : Session} {steps : List (System.Step Session Session.Action Obs)}
  {o : Obs}

/-- What is read while the client logs in is not sealed. -/
lemma Phase.read_shown (hC : CipherLaws L user.hexDecode) {packet : OpenSimp.Packet}
    {toClient : List OpenSimp.Packet} {toServer : List Bytes} {stage : Stage}
    {iv seed data : Bytes} {client : Client} {sent : List Bytes}
    (h : Phase L user stage s.client.status (packet :: toClient) toServer) (hiv : iv.length = 12)
    (hdata : packet.wire L iv = some data)
    (hclient : read L user seed data s.client = some (client, sent)) :
    plaintexts [packet] = [] ∧ client.textbox = s.client.textbox ∨
      ∃ d line, plaintexts [packet] = [d] ∧ lineShown d = some line ∧
        client.textbox = s.client.textbox ++ [line] := by
  generalize hstatus : s.client.status = status at h
  cases h with
  | login h hlogin =>
    subst hstatus
    cases h with
    | greeted =>
      obtain ⟨n, ciphertext, -, -, rfl, -⟩ := read_login hlogin hclient
      exact .inl ⟨rfl, rfl⟩
    | asked =>
      obtain ⟨rfl, -⟩ := read_spb hlogin hclient
      exact .inl ⟨rfl, rfl⟩
    | keyed =>
      obtain ⟨hex, key, -, -, rfl, -⟩ := read_aes hlogin hclient
      exact .inl ⟨rfl, rfl⟩
  | running hstage hkey hsealed =>
    obtain ⟨pt, packet', hpt, hpacket, rfl, -⟩ := read_running hstatus hclient
    cases packet with
    | clear bytes => exact (hsealed _ List.mem_cons_self).elim
    | sealed d =>
      obtain ⟨key', hlength, hserver, -⟩ := exists_key hC
      cases hserver.symm.trans hkey
      cases (aesDecrypt_wire hC hkey hlength hiv hdata).symm.trans hpt
      exact .inr ⟨_, packet'.line, rfl, by rw [lineShown, hpacket]; rfl, rfl⟩
  | left =>
    rw [read, hstatus] at hclient
    split_ifs at hclient

lemma Session.InStep.server (hL : user.Lawful L) (h : s.InStep L user n steps)
    (hrun : (session L user n).Run (Session.init userdata) steps s) {e : Event} {c : Config}
    {toServer : List Bytes} (hstep : (OpenSimp.server L).step s.server e o c)
    (htakes : (s.server.pollOf n e).Takes ((program L user).quit s.client) s.toServer toServer)
    (hquiet : ¬ e.Intrudes L n s.server)
    (hs' : s' = { s with
      server := c
      toClient := s.toClient ++ sentOn n ⟨s.server, e, o, c⟩
      toServer := toServer }) :
    s'.InStep L user n (steps ++ [⟨s, .server e, o, s'⟩]) := by
  subst hs'
  have hmoves := moves_of_step (server_run hrun).reachable hstep hquiet
  have hsteps : ∀ s', serverSteps (steps ++ [⟨s, .server e, o, s'⟩]) =
      serverSteps steps ++ [⟨s.server, e, o, s'.server⟩] := fun _ => serverSteps_append _ _
  constructor
  · exact h.phase.moves hL hmoves of_decide_eq_true htakes
  · exact h.wrote
  · rw [hsteps, readsOn_append, readsOn_singleton, List.append_assoc]
    exact (congrArg _ htakes.data).trans h.sent
  · rw [hsteps, List.flatMap_append, List.flatMap_singleton, ← h.received, List.append_assoc]
  · exact h.shows_typed
  · exact h.shows_received

lemma Session.InStep.reads (hC : CipherLaws L user.hexDecode) (hL : user.Lawful L)
    (h : s.InStep L user n steps) {iv seed data : Bytes} {packet : OpenSimp.Packet}
    {toClient : List OpenSimp.Packet} {client : Client} {sent : List Bytes}
    (hpacket : s.toClient = packet :: toClient) (hiv : iv.length = 12)
    (hdata : packet.wire L iv = some data)
    (hclient : read L user seed data s.client = some (client, sent))
    (hs' : s' = { s with
      client := client
      toClient := toClient
      toServer := s.toServer ++ sent
      sent := s.sent ++ sent
      received := s.received ++ [packet] }) :
    s'.InStep L user n (steps ++ [⟨s, .reads iv seed, o, s'⟩]) := by
  have hphase := hpacket ▸ h.phase
  have hsteps : serverSteps (steps ++ [⟨s, .reads iv seed, o, s'⟩]) = serverSteps steps := by
    rw [serverSteps_append]
    exact List.append_nil _
  obtain ⟨lines, hlines, hshown⟩ := h.shows_received
  have htextbox := hphase.read_shown hC hiv hdata hclient
  have hgrows : s.client.textbox <+ client.textbox := by
    rcases htextbox with ⟨-, htextbox⟩ | ⟨d, line, -, -, htextbox⟩
    · rw [htextbox]
    · rw [htextbox]
      exact List.sublist_append_left _ _
  subst hs'
  constructor
  · exact hphase.reads hC hL hdata hclient
  · exact h.wrote.reads hL hphase hdata hclient
  · rw [hsteps]
    show _ ++ (s.toServer ++ sent) = s.sent ++ sent
    rw [← List.append_assoc, h.sent]
  · rw [hsteps, ← h.received, hpacket]
    exact List.append_assoc _ _ _
  · exact h.shows_typed.trans hgrows
  · show ∃ lines, List.Forall₂ _ (plaintexts (s.received ++ [packet])) lines ∧ _
    rw [plaintexts_append]
    rcases htextbox with ⟨hnone, -⟩ | ⟨d, line, hone, hline, htextbox⟩
    · rw [hnone, List.append_nil]
      exact ⟨lines, hlines, hshown.trans hgrows⟩
    · rw [hone]
      refine ⟨lines ++ [line], List.rel_append hlines (.cons hline .nil), ?_⟩
      rw [htextbox]
      exact hshown.append (List.Sublist.refl _)

lemma Session.InStep.types (hC : CipherLaws L user.hexDecode) (h : s.InStep L user n steps)
    {nonceRnd : Bytes} {message : List Char} {client : Client} {sent : List Bytes}
    (hnonce : nonceRnd.length = 12)
    (hclient : submit L user nonceRnd message s.client = some (client, sent))
    (hs' : s' = { s with
      client := client
      toServer := s.toServer ++ sent
      sent := s.sent ++ sent
      typed := s.typed ++ [message] }) :
    s'.InStep L user n (steps ++ [⟨s, .types nonceRnd message, o, s'⟩]) := by
  have hsteps : serverSteps (steps ++ [⟨s, .types nonceRnd message, o, s'⟩]) =
      serverSteps steps := by
    rw [serverSteps_append]
    exact List.append_nil _
  obtain ⟨key, hstatus, -, -, htextbox, -⟩ := submit_eq_some hclient
  obtain ⟨lines, hlines, hshown⟩ := h.shows_received
  subst hs'
  constructor
  · exact h.phase.types hclient
  · exact h.wrote.types hC h.phase hnonce hclient
  · rw [hsteps]
    show _ ++ (s.toServer ++ sent) = s.sent ++ sent
    rw [← List.append_assoc, h.sent]
  · rw [hsteps]
    exact h.received
  · show (typing user.uname false (s.typed ++ [message])).map Prod.fst <+ client.textbox
    have hwrote := hstatus ▸ h.wrote
    have htyped := h.shows_typed
    rw [htextbox]
    generalize s.client.uwuify = uwuify at hwrote ⊢
    generalize s.typed = typed at hwrote htyped ⊢
    generalize s.sent = before at hwrote
    cases hwrote with
    | running hlogin hopens hstays =>
      rw [typing_append user.uname hstays, List.map_append]
      exact htyped.append (List.Sublist.refl _)
  · refine ⟨lines, hlines, hshown.trans ?_⟩
    show s.client.textbox <+ client.textbox
    rw [htextbox]
    exact List.sublist_append_left _ _

/-- Along a run in which its handshake is not intruded on, the session is in step. -/
lemma inStep_of_run (hC : CipherLaws L user.hexDecode) (hL : user.Lawful L)
    (h : (session L user n).Run (Session.init userdata) steps s)
    (hquiet : ∀ st ∈ serverSteps steps, ¬ st.event.Intrudes L n st.pre) :
    s.InStep L user n steps := by
  induction h with
  | nil =>
    exact ⟨.login .before rfl, .login, rfl, rfl, List.Sublist.refl _, [], .nil,
      List.Sublist.refl _⟩
  | @snoc steps s s' e o hrun hstep ih =>
    rw [serverSteps_append] at hquiet
    have hinstep := ih fun st hst => hquiet st (List.mem_append_left _ hst)
    cases hstep with
    | @server e o c toServer hserver htakes =>
      have hlast := hquiet ⟨s.server, e, o, c⟩ (List.mem_append_right _ (List.mem_singleton_self _))
      exact hinstep.server hL hrun hserver htakes hlast rfl
    | reads hpacket hdata hclient =>
      obtain ⟨hiv, -, hclient⟩ := program_read_iff.mp hclient
      exact hinstep.reads hC hL hpacket hiv hdata hclient rfl
    | types hclient =>
      obtain ⟨hnonce, hclient⟩ := program_submit_iff.mp hclient
      exact hinstep.types hC hnonce hclient rfl

/-- If in addition the name of the user has no separator, all that another client is sent under this
name while the user's client is `Done` stands in the client's text box, in the same order; who was
renamed may have used the name before. The text box also shows the packets that were sealed for the
client, as far as they have been read, in their order. -/
theorem transcripts_agree (L : Library) (hC : CipherLaws L user.hexDecode) (hL : user.Lawful L)
    (n : ℕ) (h : (session L user n).Run (Session.init userdata) steps s)
    (hquiet : ∀ st ∈ serverSteps steps, ¬ st.event.Intrudes L n st.pre)
    (hu : separator ∉ user.uname) (m : ℕ) :
    ((serverSteps steps).filter fun st => st.pre.isDone n).flatMap (linesFrom user.uname m) <+
        s.client.textbox ∧
      plaintexts s.received ++ plaintexts s.toClient =
        (serverSteps steps).flatMap (sealedOn n) ∧
      ∃ lines, List.Forall₂ (fun d line => lineShown d = some line) (plaintexts s.received) lines ∧
        lines <+ s.client.textbox := by
  have hinstep := inStep_of_run hC hL h hquiet
  have hfollows := hinstep.wrote.follows.of_prefix (hinstep.sent ▸ List.prefix_append _ _)
  refine ⟨?_, ?_, hinstep.shows_received⟩
  · exact (hfollows.linesFrom_sublist (server_run h) hu m).trans hinstep.shows_typed
  · rw [← plaintexts_append, hinstep.received, plaintexts, List.filterMap_flatMap]
    rfl

end Runs

end OpenSimp.Rust

namespace OpenSimp

open Bytes FaultState System ServerNetwork
open scoped List

namespace Toy

/-- Dora, with a modulus of two hundred digits. -/
def dora : Rust.User where
  uname := ascii "dora"
  passwd := ascii "pw"
  modulus := 10 ^ 200 - 1
  publicKey := modulus
  bigUint := bigInt
  rsaPublicKey := rsaPublicKey
  rsaEncrypt := rsaEncrypt
  rsaDecrypt := rsaDecrypt
  hexDecode := hexDecodeAny

/-- Credentials that can be encrypted are read by the server. -/
lemma exists_rsaEncrypt {credentials : Bytes} (h : ((bigInt modulus).any fun n =>
      rsaPublicKey n && (rsaEncrypt n credentials).isSome) = true) :
    ∃ n ciphertext, bigInt modulus = some n ∧ rsaPublicKey n = true ∧
      rsaEncrypt n credentials = some ciphertext ∧
      ∀ seed, rsaDecrypt (ciphertext seed) = some credentials := by
  obtain ⟨n, hn, hrest⟩ := (Option.any_eq_true _ _).mp h
  obtain ⟨hpublic, hct⟩ := Bool.and_eq_true_iff.mp hrest
  obtain ⟨ciphertext, hct⟩ := Option.isSome_iff_exists.mp hct
  exact ⟨n, ciphertext, hn, hpublic, hct, fun seed => rsaDecrypt_rsaEncrypt hct seed⟩

lemma dora_lawful : dora.Lawful anyCase where
  nul_not_mem := by decide
  bigInt := by decide +kernel
  decrypts := by
    intro plaintext ciphertext seed h
    exact rsaDecrypt_rsaEncrypt h seed
  valid := by decide +kernel
  encrypts := exists_rsaEncrypt (by decide +kernel)

/-- Plays a session of Dora's client, on the connection 1. -/
def doraPlays (L : Library) := Session.play L (Rust.program L dora) 1 (Rust.Session.init [])

/-- Alice is there when Dora's client logs in and Dora types a message, which Alice answers. -/
def doraTypes : List Rust.Session.Action :=
  [.server (joins 1), .server (polls 0 (logsIn (ascii "alice") (ascii "pw")) 5),
    .server (polls 0 modulus 10), .server (joins 2), reads,
    .server (polls 1 (logsIn (ascii "dora") (ascii "pw")) 15), reads,
    .server (polls 1 (modulus ++ [0]) 20), reads,
    .types (List.replicate 12 0) "hi".toList,
    .server (polls 1 (seals (ascii "0hi")) 1000), .server (polls 0 (seals (ascii "0hey")) 2000),
    reads]

end Toy

/-- Alice is shown the message in Dora's text box, and Dora her answer. -/
theorem transcripts_agree_toy :
    ∃ steps s, Toy.doraPlays Toy.anyCase Toy.doraTypes = some (steps, s) ∧
      s.client.textbox = [ascii "<dora>: 'hi'\n", ascii "<alice>: 'hey'\n"] ∧
      ((serverSteps steps).filter fun st => st.pre.isDone 1).flatMap
        (linesFrom (ascii "dora") 0) = [ascii "<dora>: 'hi'\n"] ∧
      ((serverSteps steps).filter fun st => st.pre.isDone 1).flatMap
        (linesFrom (ascii "dora") 0) <+ s.client.textbox := by
  have hsome : (Toy.doraPlays Toy.anyCase Toy.doraTypes).map (fun x => (x.2.client.textbox,
        ((serverSteps x.1).filter fun st => st.pre.isDone 1).flatMap
          (linesFrom (ascii "dora") 0),
        (serverSteps x.1).any (Toy.handlesCommand Toy.anyCase))) =
      some ([ascii "<dora>: 'hi'\n", ascii "<alice>: 'hey'\n"], [ascii "<dora>: 'hi'\n"],
        false) := by decide +kernel
  obtain ⟨⟨steps, s⟩, hplay, heq⟩ := Option.map_eq_some_iff.mp hsome
  simp only [Prod.mk.injEq] at heq
  obtain ⟨htextbox, hlines, hany⟩ := heq
  refine ⟨steps, s, hplay, htextbox, hlines, ?_⟩
  exact (Rust.transcripts_agree Toy.anyCase Toy.anyCase_cipherLaws Toy.dora_lawful 1
    (Session.run_of_play hplay) (Toy.not_intrudes_of_not_handlesCommand hany)
    (by decide) 0).1

end OpenSimp
