import OpenSimp.Properties.Textboxes

/-!
# Logins come to an end

While a Rust client logs in, neither side waits for the other in vain: there is a message under way
that the client can read, or one for the server. As the client reads three messages before it is at
work, a login comes to an end unless the server drops the client.
-/

namespace OpenSimp

open Bytes FaultState System ServerNetwork

section Server

variable {R : Room} {L : Library} {w : World} {i n : ℕ} {r : Row} {q : Reply} {status : AuthStatus}
  {data : Bytes}

/-- A client that is exchanging keys is at another stage after each of its messages. -/
lemma Room.stageOf_of_read (hr : R.rows[i]? = some r) (hserve : R.serve L w i r = .ok q)
    (hpoll : w.poll = .read data) (hstatus : r.status = .undone ∨ r.status = .keyReceived) :
    q.room.config.stageOf r.conn ≠ .present r.status := by
  obtain ⟨req, hreq, -⟩ := Room.serve_outcome hserve
  have hfits := Room.request_fits hreq
  have hread : req.Read := by
    rw [Room.request_read_iff hreq]
    rw [World.poll] at hpoll
    split_ifs at hpoll with hclosed hdata
    exact ⟨hclosed, hdata⟩
  rcases Room.serve_row hreq hserve with ⟨-, herases⟩ | ⟨hstays, f, hkeeps⟩
  · rw [Room.stageOf_of_erases hr herases]
    simp
  · rw [Room.stageOf_of_changes hr hkeeps.changes, hkeeps.status]
    show Stage.present (req.stage r.status) ≠ .present r.status
    rcases hstatus with hstatus | hstatus
    · rw [hstatus] at hfits ⊢
      cases req with
      | login | register => simp [Request.stage]
      | garbledLogin | wrongPassword => exact absurd trivial hstays
      | leave | idle => exact hread.elim
      | spam | key => cases hfits
      | unreadable | illegal | chat | rename | console | command => exact absurd rfl hfits.1
    · rw [hstatus] at hfits ⊢
      cases req with
      | key => simp [Request.stage]
      | leave | idle => exact hread.elim
      | spam | login | register | garbledLogin | wrongPassword => cases hfits
      | unreadable | illegal | chat | rename | console | command => exact absurd rfl hfits.2

/-- The same for the server's own steps. -/
lemma stageOf_of_read {userdata : Bytes} {c c' : Config} {e : Event} {o : Obs}
    (h : (server L).Reachable (Config.init userdata) c) (hstep : (server L).step c e o c')
    (hpoll : c.pollOf n e = .read data) (hstage : c.stageOf n = .present status)
    (hstatus : status = .undone ∨ status = .keyReceived) : c'.stageOf n ≠ .present status := by
  obtain ⟨R, hR, rfl⟩ := reachable_lift h
  obtain ⟨R', rfl, hrstep⟩ := room_embeds L R _ _ _ hstep
  cases e with
  | accept p w => cases hpoll
  | receive i w =>
    obtain ⟨r, q, hr, hserve, -, rfl⟩ := hrstep.served_inv
    rw [Room.pollOf_receive hr] at hpoll
    split_ifs at hpoll with hconn
    subst hconn
    rw [Room.stageOf_of_mem (List.mem_of_getElem? hr), Stage.present.injEq] at hstage
    subst hstage
    exact Room.stageOf_of_read hr hserve hpoll hstatus

/-- What a client at the stage of `status` has sent waits on, as long as it stays at this stage. -/
lemma Poll.Takes.waits {userdata : Bytes} {c c' : Config} {e : Event} {o : Obs} {left : Prop}
    {toServer rest : List Bytes} (h : (c.pollOf n e).Takes left toServer rest) (hleft : ¬ left)
    (hreach : (server L).Reachable (Config.init userdata) c) (hstep : (server L).step c e o c')
    (hstatus : status = .undone ∨ status = .keyReceived) (hstage : c.stageOf n = .present status)
    (hstage' : c'.stageOf n = .present status) (hne : toServer ≠ []) : rest ≠ [] := by
  refine h.ne_nil hleft hne fun data hpoll => ?_
  exact stageOf_of_read hreach hstep hpoll hstage hstatus hstage'

end Server

namespace Rust

variable {L : Library} {user : User} {n : ℕ} {userdata : Bytes} {s s' : Session}
  {steps : List (System.Step Session Session.Action Obs)} {o : Obs}

/-- What the buffers of the client have room for. -/
structure User.Fits (user : User) (L : Library) : Prop where
  publicKey : 2 ≤ L.publicKey.length ∧ L.publicKey.length < 4096
  ciphertext : ∀ ciphertext seed, L.rsaEncrypt user.modulus serverKey = some ciphertext →
    ciphertext seed ≠ [] ∧ (ciphertext seed).length ≤ 4096

/-- A client that has sent its credentials or its key is still to be read, or has been answered.
What it has read tells how far it is, and so does the length of its buffer. -/
structure Session.Live (L : Library) (n : ℕ) (s : Session) : Prop where
  undone : s.client.status = .spb → s.server.stageOf n = .present .undone → s.toServer ≠ []
  keyReceived : s.client.status = .aes → s.server.stageOf n = .present .keyReceived →
    s.toServer ≠ []
  login : s.client.status = .login → s.received.length = 0
  spb : s.client.status = .spb → s.client.room = L.publicKey.length + 1 ∧ s.received.length = 1
  aes : s.client.status = .aes → s.received.length = 2
  room : s.client.status ≠ .spb → s.client.room = 4096

/-! ### Steps -/

/-- Once it is at work, the client waits for no answer. -/
lemma Session.live_of_not_login (hlogin : s.client.status ≠ .login) (hspb : s.client.status ≠ .spb)
    (haes : s.client.status ≠ .aes) (hroom : s.client.room = 4096) : s.Live L n where
  undone h := absurd h hspb
  keyReceived h := absurd h haes
  login h := absurd h hlogin
  spb h := absurd h hspb
  aes h := absurd h haes
  room _ := hroom

section Phases

variable {stage : Stage} {toClient : List OpenSimp.Packet} {toServer : List Bytes}

lemma Phase.stage_of_spb (h : Phase L user stage .spb toClient toServer) :
    stage = .present .undone ∨ stage = .present .keyReceived ∨ stage = .gone := by
  cases h with
  | login h hlogin =>
    cases h with
    | authenticating => exact .inl rfl
    | asked => exact .inr (.inl rfl)
    | dropped => exact .inr (.inr rfl)
    | before | greeted | answering | keyed => cases hlogin

lemma Phase.stage_of_aes (h : Phase L user stage .aes toClient toServer) :
    stage = .present .keyReceived ∨ stage = .present .done ∨ stage = .gone := by
  cases h with
  | login h hlogin =>
    cases h with
    | answering => exact .inl rfl
    | keyed => exact .inr (.inl rfl)
    | dropped => exact .inr (.inr rfl)
    | before | greeted | authenticating | asked => cases hlogin

end Phases

lemma Session.Live.server (h : s.Live L n)
    (hphase : Phase L user (s.server.stageOf n) s.client.status s.toClient s.toServer)
    (hreach : (OpenSimp.server L).Reachable (Config.init userdata) s.server) {e : Event}
    {c : Config} {toServer : List Bytes} (hstep : (OpenSimp.server L).step s.server e o c)
    {left : Prop} (hleft : left → s.client.status = .quit)
    (htakes : (s.server.pollOf n e).Takes left s.toServer toServer)
    (hquiet : ¬ e.Intrudes L n s.server) :
    Session.Live L n { s with
      server := c
      toClient := s.toClient ++ sentOn n ⟨s.server, e, o, c⟩
      toServer := toServer } := by
  have hmoves := moves_of_step hreach hstep hquiet
  generalize sentOn n ⟨s.server, e, o, c⟩ = packets at hmoves
  generalize s.server.pollOf n e = poll at hmoves
  constructor
  · intro hstatus hstage'
    have hstage' : c.stageOf n = .present .undone := hstage'
    have hstatus : s.client.status = .spb := hstatus
    rw [hstatus] at hphase
    -- only a connection that is not accepted yet becomes `Undone`
    have hstage : s.server.stageOf n = .present .undone := by
      rw [hstage'] at hmoves
      generalize s.server.stageOf n = stage at hmoves hphase
      cases hmoves with
      | stays => rfl
      | accepts => rcases hphase.stage_of_spb with h | h | h <;> cases h
    exact htakes.waits (mt hleft (by simp [hstatus])) hreach hstep (.inl rfl) hstage hstage'
      (h.undone hstatus hstage)
  · intro hstatus hstage'
    have hstage' : c.stageOf n = .present .keyReceived := hstage'
    have hstatus : s.client.status = .aes := hstatus
    rw [hstatus] at hphase
    have hstage : s.server.stageOf n = .present .keyReceived := by
      rw [hstage'] at hmoves
      generalize s.server.stageOf n = stage at hmoves hphase
      cases hmoves with
      | stays => rfl
      | asks => rcases hphase.stage_of_aes with h | h | h <;> cases h
    exact htakes.waits (mt hleft (by simp [hstatus])) hreach hstep (.inr rfl) hstage hstage'
      (h.keyReceived hstatus hstage)
  · exact h.login
  · exact h.spb
  · exact h.aes
  · exact h.room

lemma Session.Live.reads (h : s.Live L n) {iv seed data : Bytes} {packet : OpenSimp.Packet}
    {toClient : List OpenSimp.Packet} {client : Client} {sent : List Bytes}
    (hphase : Phase L user (s.server.stageOf n) s.client.status (packet :: toClient) s.toServer)
    (hdata : packet.wire L iv = some data)
    (hclient : read L user seed data s.client = some (client, sent)) :
    Session.Live L n { s with
      client := client
      toClient := toClient
      toServer := s.toServer ++ sent
      sent := s.sent ++ sent
      received := s.received ++ [packet] } := by
  have hlogin := h.login
  have hspb := h.spb
  have hroom := h.room
  generalize hstatus : s.client.status = status at hphase
  generalize hstage : s.server.stageOf n = stage at hphase
  generalize htoServer : s.toServer = toServer at hphase ⊢
  cases hphase with
  | login hphase hawaiting =>
    subst hstatus
    cases hphase with
    | greeted =>
      obtain ⟨m, ciphertext, -, -, rfl, rfl⟩ := read_login hawaiting hclient
      cases hdata
      constructor
      · exact fun _ _ => by simp
      · exact fun hne => by cases hne
      · exact fun hne => by cases hne
      · intro _
        exact ⟨List.length_append, by rw [List.length_append, hlogin hawaiting]; rfl⟩
      · exact fun hne => by cases hne
      · exact fun hne => absurd rfl hne
    | asked =>
      obtain ⟨rfl, rfl⟩ := read_spb hawaiting hclient
      constructor
      · exact fun hne => by cases hne
      · exact fun _ _ => by simp
      · exact fun hne => by cases hne
      · exact fun hne => by cases hne
      · intro _
        rw [List.length_append, (hspb hawaiting).2]
        rfl
      · exact fun _ => rfl
    | keyed =>
      obtain ⟨hex, key, -, -, rfl, rfl⟩ := read_aes hawaiting hclient
      refine Session.live_of_not_login (by simp) (by simp) (by simp) (hroom ?_)
      rw [hawaiting]
      simp [Status.awaiting]
  | running =>
    obtain ⟨pt, packet', -, -, rfl, rfl⟩ := read_running hstatus hclient
    exact Session.live_of_not_login (by simp [hstatus]) (by simp [hstatus]) (by simp [hstatus])
      (hroom (by simp [hstatus]))
  | left =>
    rw [read, hstatus] at hclient
    split_ifs at hclient

/-- Along a run in which its login is not intruded on, the session is live. -/
lemma live_of_run (hC : CipherLaws L user.hexDecode) (hL : user.Lawful L)
    (h : (session L user n).Run (Session.init userdata) steps s)
    (hquiet : ∀ st ∈ serverSteps steps, ¬ st.event.Intrudes L n st.pre) : s.Live L n := by
  induction h with
  | nil =>
    exact ⟨fun h => (by cases h), fun h => (by cases h), fun _ => rfl, fun h => (by cases h),
      fun h => (by cases h), fun _ => rfl⟩
  | @snoc steps s s' e o hrun hstep ih =>
    rw [serverSteps_append] at hquiet
    have hbefore := fun st hst => hquiet st (List.mem_append_left _ hst)
    have hlive := ih hbefore
    have hphase := (inStep_of_run hC hL hrun hbefore).phase
    cases hstep with
    | @server e o c toServer hserver htakes =>
      have hlast := hquiet ⟨s.server, e, o, c⟩ (List.mem_append_right _ (List.mem_singleton_self _))
      exact hlive.server hphase (server_run hrun).reachable hserver of_decide_eq_true htakes hlast
    | reads hpacket hdata hclient =>
      exact hlive.reads (hpacket ▸ hphase) hdata (program_read_iff.mp hclient).2.2
    | @types nonceRnd message client sent hclient =>
      have hclient := (program_submit_iff.mp hclient).2
      obtain ⟨key, hrunning, hstatus, -⟩ := submit_eq_some hclient
      have hroom : client.room = 4096 :=
        (room_of_submit hclient).trans (hlive.room (by simp [hrunning]))
      refine Session.live_of_not_login ?_ ?_ ?_ hroom
      all_goals
        show client.status ≠ _
        rw [hstatus]
        split_ifs <;> simp

/-! ### Progress -/

/-- Whatever is under way to a client that logs in fits its buffer. -/
lemma Session.Live.exists_wire (h : s.Live L n) (hF : user.Fits L) {packet : OpenSimp.Packet}
    {toClient : List OpenSimp.Packet} (hphase : Phase L user (s.server.stageOf n) s.client.status
      (packet :: toClient) s.toServer)
    (hstatus : s.client.status ∈ [.login, .spb, .aes]) (iv : Bytes) :
    ∃ data, packet.wire L iv = some data ∧ data ≠ [] ∧ data.length ≤ s.client.room := by
  have hspb := h.spb
  have hroom := h.room
  generalize s.client.status = status at hphase hstatus hspb hroom
  generalize s.server.stageOf n = stage at hphase
  generalize s.toServer = toServer at hphase
  cases hphase with
  | login hphase hawaiting =>
    subst hawaiting
    cases hphase with
    | greeted =>
      refine ⟨_, rfl, by simp, ?_⟩
      rw [hroom (by simp [Status.awaiting]), List.length_append]
      exact hF.publicKey.2
    | asked =>
      refine ⟨_, rfl, by decide, ?_⟩
      rw [(hspb rfl).1]
      show 3 ≤ _
      exact Nat.succ_le_succ hF.publicKey.1
    | keyed hct hsealed =>
      obtain ⟨hne, hlength⟩ := hF.ciphertext _ _ hct
      exact ⟨_, rfl, hne, hlength.trans_eq (hroom (by simp [Status.awaiting])).symm⟩
  | running => simp at hstatus
  | left => simp at hstatus

/-- Nothing is missing on the way between a client that logs in and the server. -/
lemma Session.Live.toClient_ne_nil (h : s.Live L n)
    (hphase : Phase L user (s.server.stageOf n) s.client.status s.toClient s.toServer)
    (hstatus : s.client.status ∈ [.login, .spb, .aes]) {status : AuthStatus}
    (hstage : s.server.stageOf n = .present status) (htoServer : s.toServer = []) :
    s.toClient ≠ [] := by
  intro hnil
  have hundone := h.undone
  have hkeyReceived := h.keyReceived
  rw [htoServer, hstage] at hundone hkeyReceived
  rw [htoServer, hnil, hstage] at hphase
  generalize s.client.status = status' at hphase hstatus hundone hkeyReceived
  cases hphase with
  | login hphase hawaiting =>
    subst hawaiting
    cases hphase with
    | authenticating => exact hundone rfl rfl rfl
    | answering => exact hkeyReceived rfl rfl rfl
  | running => simp at hstatus
  | left => simp at hstatus

/-- As long as no `msg` command addresses a client that is still exchanging keys, its login comes to
an end after three messages of the server, and unless the server drops the client, a message is
always under way: one that the client can read next, or one that the server has not read. -/
theorem login_proceeds (L : Library) (hC : CipherLaws L user.hexDecode) (hL : user.Lawful L)
    (hF : user.Fits L) (n : ℕ) (h : (session L user n).Run (Session.init userdata) steps s)
    (hquiet : ∀ st ∈ serverSteps steps, ¬ st.event.Intrudes L n st.pre)
    (hstatus : s.client.status ∈ [.login, .spb, .aes]) :
    s.received.length < 3 ∧ ∀ status, s.server.stageOf n = .present status →
      s.toServer ≠ [] ∨ ∀ iv seed, iv.length = 12 →
        ∃ o s', (session L user n).step s (.reads iv seed) o s' := by
  have hphase := (inStep_of_run hC hL h hquiet).phase
  have hlive := live_of_run hC hL h hquiet
  constructor
  · have hcases : s.client.status = .login ∨ s.client.status = .spb ∨ s.client.status = .aes := by
      simpa using hstatus
    rcases hcases with hlogin | hspb | haes
    · rw [hlive.login hlogin]
      simp
    · rw [(hlive.spb hspb).2]
      simp
    · rw [hlive.aes haes]
      simp
  · intro status hstage
    by_cases htoServer : s.toServer = []
    · refine .inr fun iv seed hiv => ?_
      obtain ⟨packet, toClient, htoClient⟩ := List.exists_cons_of_ne_nil
        (hlive.toClient_ne_nil hphase hstatus hstage htoServer)
      rw [htoClient] at hphase
      obtain ⟨data, hdata, hne, hfits⟩ := hlive.exists_wire hF hphase hstatus iv
      have hrunning : ∀ key, s.client.status ≠ .running key := by
        rintro key heq
        rw [heq] at hstatus
        simp at hstatus
      have hquit : s.client.status ≠ .quit := by
        intro heq
        rw [heq] at hstatus
        simp at hstatus
      obtain ⟨⟨client, sent⟩, hclient⟩ := hphase.exists_read hC hL hdata hne hrunning hquit
      exact ⟨_, _, .reads htoClient hdata (program_read_iff.mpr ⟨hiv, hfits, hclient⟩)⟩
    · exact .inl htoServer

end Rust

namespace Toy

/-- A ciphertext has only the first hundred bytes of the padding. -/
def padded : Library :=
  { anyCase with
    rsaEncrypt := fun n plaintext =>
      (rsaEncrypt n plaintext).map fun ciphertext seed => ciphertext (seed.take 100) }

lemma padded_cipherLaws : CipherLaws padded hexDecodeAny where
  length := anyCase_cipherLaws.length
  correct := anyCase_cipherLaws.correct
  hex := anyCase_cipherLaws.hex
  key := anyCase_cipherLaws.key

lemma dora_lawful_padded : dora.Lawful padded where
  nul_not_mem := dora_lawful.nul_not_mem
  bigInt := dora_lawful.bigInt
  decrypts := by
    intro plaintext ciphertext seed h
    obtain ⟨ciphertext', hct, rfl⟩ := Option.map_eq_some_iff.mp h
    exact rsaDecrypt_rsaEncrypt hct _
  valid := dora_lawful.valid
  encrypts := dora_lawful.encrypts

lemma dora_fits : dora.Fits padded where
  publicKey := by
    have hlength : padded.publicKey.length = 200 := List.length_replicate
    rw [hlength]
    decide
  ciphertext := by
    intro ciphertext seed h
    generalize dora.modulus = m at h
    obtain ⟨ciphertext', hct, rfl⟩ := Option.map_eq_some_iff.mp h
    rw [rsaEncrypt] at hct
    split_ifs at hct
    cases hct
    have hseed : (cstr (seed.take 100)).length ≤ 100 :=
      (length_cstr_le _).trans (List.length_take_le _ _)
    have hkey : serverKey.length = 64 := rfl
    refine ⟨by simp, ?_⟩
    simp only [List.length_append, List.length_singleton, hkey]
    omega

end Toy

/-- Dora's client can read the server's key. -/
theorem login_proceeds_toy :
    ∃ steps s, Toy.doraPlays Toy.padded (Toy.doraTypes.take 8) = some (steps, s) ∧
      s.client.status = .aes ∧ s.received.length < 3 ∧
      ∃ o s',
        (Rust.session Toy.padded Toy.dora 1).step s (.reads (List.replicate 12 0) []) o s' := by
  have hsome : (Toy.doraPlays Toy.padded (Toy.doraTypes.take 8)).map (fun x =>
      (x.2.client.status, x.2.server.stageOf 1, x.2.toServer,
        (serverSteps x.1).any (Toy.handlesCommand Toy.padded))) =
      some (.aes, .present .done, [], false) := by decide +kernel
  obtain ⟨⟨steps, s⟩, hplay, heq⟩ := Option.map_eq_some_iff.mp hsome
  simp only [Prod.mk.injEq] at heq
  obtain ⟨hstatus, hstage, htoServer, hany⟩ := heq
  obtain ⟨hreceived, hall⟩ := Rust.login_proceeds Toy.padded Toy.padded_cipherLaws
    Toy.dora_lawful_padded Toy.dora_fits 1 (Session.run_of_play hplay)
    (Toy.not_intrudes_of_not_handlesCommand hany) (by simp [hstatus])
  refine ⟨steps, s, hplay, hstatus, hreceived, ?_⟩
  rcases hall _ hstage with hne | hreads
  · exact absurd htoServer hne
  · exact hreads _ _ rfl

end OpenSimp
