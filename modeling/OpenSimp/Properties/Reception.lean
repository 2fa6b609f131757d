import OpenSimp.Properties.PacketSizes
import OpenSimp.Properties.Privacy
import OpenSimp.Properties.Progress

/-!
# What Rust clients do to each other

A user of the Rust client breaks the others' clients with one text only, the request for the
console. As long as nothing is sent that a client cannot read, a client that is at work reads
whatever is under way to it.
-/

namespace OpenSimp

open Bytes FaultState System ServerNetwork Utf8

variable {R : Room} {L : Library} {w : World} {i n : ℕ} {r : Row} {req : Request}
  {uname passwd d text : Bytes} {uwuify : Bool} {messages : List (List Char)}

/-! ### What is typed -/

/-- Only the request for the console is sent without a text. -/
lemma Rust.trim_of_sendMessage {message : List Char}
    (h : (Rust.sendMessage uwuify message).2 = some (ascii "4")) :
    Rust.trim message = ".op".toList := by
  by_contra hop
  rw [Rust.sendMessage, if_neg hop] at h
  split_ifs at h
  · have htag : (53 : Byte) = 52 := (List.cons.inj (Option.some.inj h)).1
    exact absurd htag (by decide)
  all_goals
    have htag : (48 : Byte) = 52 := (List.cons.inj (Option.some.inj h)).1
    exact absurd htag (by decide)

/-- What is typed is a request for the console, a command or a message. -/
lemma cases_of_typing (h : d ∈ (Rust.typing uname uwuify messages).filterMap Prod.snd) :
    d = ascii "4" ∧ (∃ message ∈ messages, Rust.trim message = ".op".toList) ∨
      (∃ text, d = 53 :: text) ∨ ∃ text, d = 48 :: text := by
  obtain ⟨⟨line, sent⟩, hmem, rfl⟩ := List.mem_filterMap.mp h
  obtain ⟨uwuify, message, hmessage, hsent, -⟩ := Rust.exists_sendMessage_of_typing hmem
  have hsends : Rust.Sends uname _ d := Rust.sends_of_sendMessage hsent
  cases hsends with
  | console => exact .inl ⟨rfl, message, hmessage, Rust.trim_of_sendMessage hsent⟩
  | command command => exact .inr (.inl ⟨_, rfl⟩)
  | chat text => exact .inr (.inr ⟨_, rfl⟩)

/-! ### What a user of the Rust client garbles -/

/-- A request for the console is garbled for whoever hears it. -/
lemma Room.garbles_of_console (hreq : R.request L w r = .ok req)
    (hsends : SendsPlaintext L w r (ascii "4")) (hlistened : R.config.Listened w r) :
    R.config.Garbles w r req := by
  have hconsole : R.request L w r = .ok .console := Room.request_of_sends hsends
  cases hreq.symm.trans hconsole
  exact .console hlistened

/-- Nothing else is garbled of what the user of a Rust client types. -/
lemma Room.console_of_garbles (hN : R.Named) (hr : R.rows[i]? = some r) (hdone : r.status = .done)
    (hreq : R.request L w r = .ok req) (hnul : ∀ message ∈ messages, Char.ofNat 0 ∉ message)
    (htyped : ∀ d, SendsPlaintext L w r d →
      d ∈ (Rust.typing uname uwuify messages).filterMap Prod.snd)
    (h : R.config.Garbles w r req) :
    SendsPlaintext L w r (ascii "4") ∧ R.config.Listened w r ∧
      ∃ message ∈ messages, Rust.trim message = ".op".toList := by
  have hnamed := hN.named r (List.mem_of_getElem? hr)
  have hreadable : ∀ c text, c < 0x80 → SendsPlaintext L w r (c :: text) →
      (0 : Byte) ∉ text ∧ Valid text :=
    fun c text hc hsends => readable_of_typing hc hnul (htyped _ hsends)
  have hcommand : ∀ text, req = .command text → Valid (cstr text) := by
    rintro text rfl
    obtain ⟨d, hsends, hd⟩ := Room.request_sends hdone hreq not_false
    obtain ⟨rfl, -⟩ := requestOfPlaintext_command hd
    obtain ⟨h0, hvalid⟩ := hreadable 53 text (by decide) hsends
    rwa [cstr_of_nul_not_mem h0]
  cases h with
  | unnamed hid =>
    have hundone := hnamed.undone_iff.mpr hid
    cases hundone.symm.trans hdone
  | chat hblank hbad =>
    obtain ⟨d, hsends, hd⟩ := Room.request_sends hdone hreq not_false
    obtain ⟨rfl, -⟩ := requestOfPlaintext_chat hd
    exact absurd (hreadable 48 _ (by decide) hsends) hbad
  | console hlistened =>
    obtain ⟨d, hsends, hd⟩ := Room.request_sends hdone hreq not_false
    rcases cases_of_typing (htyped d hsends) with ⟨rfl, hop⟩ | ⟨text, rfl⟩ | ⟨text, rfl⟩
    · exact ⟨hsends, hlistened, hop⟩
    · by_cases hadm : Admissible (53 :: text)
      · cases (requestOfPlaintext_of_command hadm).symm.trans hd
      · cases (requestOfPlaintext_of_not_admissible hadm).symm.trans hd
    · by_cases hadm : Admissible (48 :: text)
      · cases (requestOfPlaintext_of_chat hadm).symm.trans hd
      · cases (requestOfPlaintext_of_not_admissible hadm).symm.trans hd
  | unknown _ _ hbad => exact absurd (hcommand _ rfl) hbad
  | direct _ _ _ _ _ _ hbad => exact absurd (hcommand _ rfl) hbad

/-- What a step of a room encrypts for `Done` clients is read exactly when it garbles nothing. -/
lemma Room.decodable_iff {userdata : Bytes} {rst : System.Step Room Event Obs}
    (h : (room L).Reachable (Room.init userdata) rst.pre)
    (hstep : Room.Step L rst.pre rst.event rst.obs rst.post) :
    Decodable (Step.map Room.config rst) ↔ ¬ rst.event.Garbles L rst.pre.config := by
  refine Iff.trans ?_ (Room.Step.decodes_iff (Room.named_of_reachable h) hstep)
  simp only [Decodable, Step.map, Room.exists_config_row?, Room.DoneOn]

/-- A user of the Rust client who types no NUL makes the server send what another's client cannot
read with a request for the console that the other hears, and with nothing else. -/
theorem decodable_iff_not_asks_for_console (L : Library) (userdata : Bytes)
    {steps : List (System.Step Config Event Obs)} {c : Config}
    (h : (server L).Run (Config.init userdata) steps c)
    (hnul : ∀ message ∈ messages, Char.ofNat 0 ∉ message)
    (hfollows : Follows L uname passwd ((Rust.typing uname uwuify messages).filterMap Prod.snd)
      (readsOn n steps)) {st : System.Step Config Event Obs} (hst : st ∈ steps)
    (hevent : st.event = .receive i w) (hr : st.pre.row? i = some r) (hconn : r.conn = n)
    (hdone : r.status = .done) :
    (Decodable st ↔ ¬ (SendsPlaintext L w r (ascii "4") ∧ st.pre.Listened w r)) ∧
      (¬ Decodable st → ∃ message ∈ messages, Rust.trim message = ".op".toList) := by
  obtain ⟨rsteps, R, hrun, rfl, rfl⟩ := run_lift h
  obtain ⟨st, hmem, rfl⟩ := List.mem_map.mp hst
  obtain ⟨hreach, hstep⟩ := hrun.of_mem hmem
  rw [Room.decodable_iff hreach hstep]
  obtain ⟨S, e, o, S'⟩ := st
  have hrstep : Room.Step L S e o S' := hstep
  have hevent' : e = .receive i w := hevent
  subst hevent'
  subst hconn
  have hN := Room.named_of_reachable hreach
  have hrow : S.rows[i]? = some r := (Room.config_row? S i).symm.trans hr
  obtain ⟨r', q, hr', hserve, -, rfl⟩ := hrstep.served_inv
  cases hrow.symm.trans hr'
  obtain ⟨req, hreq, -⟩ := Room.serve_outcome hserve
  have htyped : ∀ d, SendsPlaintext L w r d →
      d ∈ (Rust.typing uname uwuify messages).filterMap Prod.snd := fun d hsends =>
    hfollows.mem_of_opens hrun hmem hrow hdone hsends.still_open hsends.decrypted
  have hgarbles : (Event.receive i w).Garbles L S.config ↔ S.config.Garbles w r req :=
    Room.exists_config_request hrow hreq
  have hconsole := fun hg => Room.console_of_garbles hN hrow hdone hreq hnul htyped hg
  constructor
  · apply not_congr
    refine hgarbles.trans ⟨fun hg => ⟨(hconsole hg).1, (hconsole hg).2.1⟩, fun hasks => ?_⟩
    exact Room.garbles_of_console hreq hasks.1 hasks.2
  · intro hg
    exact (hconsole (hgarbles.mp (not_not.mp hg))).2.2

/-- Carol asks for the console. -/
def Toy.asksForConsole : List Event := carolIsThere ++ [polls 2 (seals (ascii "4")) 1000]

lemma Toy.follows_asksForConsole : Follows toy (ascii "carol") (ascii "pw")
    ((Rust.typing (ascii "carol") false [".op".toList]).filterMap Prod.snd)
    [logsIn (ascii "carol") (ascii "pw"), modulus, seals (ascii "4")] := by
  have hsent : (Rust.typing (ascii "carol") false [".op".toList]).filterMap Prod.snd =
      [ascii "4"] := by decide +kernel
  rw [hsent]
  exact ⟨fun login hlogin => by cases hlogin; decide,
    [seals (ascii "4")], .cons ⟨_, decrypt_seals _⟩ .nil, List.prefix_rfl⟩

/-- Alice's client cannot read what it is sent. -/
theorem decodable_iff_not_asks_for_console_toy :
    ∃ steps c st, play toy (Config.init []) Toy.asksForConsole = some (steps, c) ∧ st ∈ steps ∧
      ¬ Decodable st := by
  have hsome : (play toy (Config.init []) Toy.asksForConsole).bind (fun x =>
      x.1.getLast?.map fun st => (st.pre.row? 0, st.pre.row? 2, readsOn 2 x.1)) =
      some (some ⟨⟨ascii "alice", false, .done, 0⟩, 0, 1⟩,
        some ⟨⟨ascii "carol", false, .done, 0⟩, 2, 3⟩,
        [Toy.logsIn (ascii "carol") (ascii "pw"), Toy.modulus, Toy.seals (ascii "4")]) := by
    decide +kernel
  obtain ⟨⟨steps, c⟩, hplay, hrest⟩ := Option.bind_eq_some_iff.mp hsome
  obtain ⟨st, hlast, heq⟩ := Option.map_eq_some_iff.mp hrest
  simp only [Prod.mk.injEq] at heq
  obtain ⟨halice, hcarol, hreads⟩ := heq
  have hst : st ∈ steps := List.mem_of_getLast? hlast
  have hevent : st.event = Toy.polls 2 (Toy.seals (ascii "4")) 1000 := by
    have hevents := congrArg List.getLast? (map_event_of_play hplay)
    rw [List.getLast?_map, hlast] at hevents
    exact Option.some.inj hevents
  refine ⟨steps, c, st, hplay, hst, ?_⟩
  rw [(decodable_iff_not_asks_for_console toy [] (run_of_play hplay) (by decide +kernel)
    (hreads ▸ Toy.follows_asksForConsole) hst hevent hcarol rfl rfl).1, not_not]
  refine ⟨Toy.sendsPlaintext rfl rfl (by decide), 0, _, halice, rfl, ?_⟩
  show (⟨1, 0⟩ : Endpoint) ≠ ⟨3, 0⟩
  decide

/-! ### A client at work -/

/-- Sealed packets go to `Done` clients only. -/
lemma Stage.Moves.done_of_sealed {stage stage' : Stage} {poll : Poll} {packets : List Packet}
    (h : Stage.Moves L stage poll packets stage') (hd : .sealed d ∈ packets) :
    stage = .present .done := by
  cases h with
  | stays => cases hd
  | accepts | asks | answers => cases List.mem_singleton.mp hd
  | relays => rfl
  | drops _ _ hdone =>
    rcases hdone with rfl | rfl
    · rfl
    · cases hd

lemma Room.exists_of_stageOf {status : AuthStatus} (h : R.config.stageOf n = .present status) :
    ∃ r ∈ R.rows, r.conn = n ∧ r.status = status := by
  by_cases hmem : ∃ r ∈ R.rows, r.conn = n
  · obtain ⟨r, hr, rfl⟩ := hmem
    rw [Room.stageOf_of_mem hr, Stage.present.injEq] at h
    exact ⟨r, hr, rfl, h⟩
  · rw [Room.stageOf_of_not_mem fun r hr hconn => hmem ⟨r, hr, hconn⟩] at h
    split_ifs at h

/-- A packet is read at once if the step garbles nothing and makes no packet too long. -/
lemma Room.reads_of_sealed {R' : Room} {e : Event} {o : Obs} (hN : R.Named)
    (hstep : Room.Step L R e o R') (hg : ¬ e.Garbles L R.config) (ho : ¬ e.Oversized L R.config)
    (hdone : R.config.stageOf n = .present .done)
    (hd : .sealed d ∈ sentOn n ⟨R.config, e, o, R'.config⟩) :
    Decodes d ∧ d.length ≤ longestPlaintext := by
  obtain ⟨t, ht, rfl, htdone⟩ := Room.exists_of_stageOf hdone
  rw [sentOn_of_mem ht, mem_sentTo] at hd
  have hon : R.DoneOn t.sock := ⟨t, ht, rfl, htdone⟩
  refine ⟨(Room.Step.decodes_iff hN hstep).mpr hg _ d hd hon, ?_⟩
  cases hstep with
  | accepted => cases List.mem_singleton.mp hd
  | declined => cases hd
  | @served i w r q hr hserve =>
    obtain ⟨req, hreq, -⟩ := Room.serve_outcome hserve
    have hover : ¬ R.config.Oversized L w i r req := fun hover =>
      ho ⟨r, req, (Room.config_row? R i).trans hr, hreq, hover⟩
    exact Room.length_le_of_not_oversized hN hr hreq hserve hover hd hon

namespace Rust

variable {user : User} {userdata : Bytes} {s : Session}
  {steps : List (System.Step Session Session.Action Obs)}

/-- As long as no `msg` command addresses the client while it is still exchanging keys and the
server sends nothing that cannot be read at once, a client that is at work reads whatever is under
way to it. -/
theorem work_proceeds (L : Library) (hC : CipherLaws L user.hexDecode) (hL : user.Lawful L) (n : ℕ)
    (h : (session L user n).Run (Session.init userdata) steps s)
    (hquiet : ∀ st ∈ serverSteps steps, ¬ st.event.Intrudes L n st.pre)
    (hclean : ∀ st ∈ serverSteps steps,
      ¬ st.event.Garbles L st.pre ∧ ¬ st.event.Oversized L st.pre) {key : Bytes}
    (hstatus : s.client.status = .running key) (hne : s.toClient ≠ []) (iv seed : Bytes)
    (hiv : iv.length = 12) : ∃ o s', (session L user n).step s (.reads iv seed) o s' := by
  have hinstep := inStep_of_run hC hL h hquiet
  have hroom := (live_of_run hC hL h hquiet).room (by simp [hstatus])
  obtain ⟨packet, toClient, htoClient⟩ := List.exists_cons_of_ne_nil hne
  obtain ⟨hkey, d, rfl⟩ : L.hexDecode serverKey = some key ∧ ∃ d, packet = .sealed d := by
    have hphase := hinstep.phase
    rw [hstatus, htoClient] at hphase
    generalize s.server.stageOf n = stage at hphase
    generalize s.toServer = toServer at hphase
    cases hphase with
    | running _ hkey hsealed =>
      cases packet with
      | clear bytes => exact (hsealed _ List.mem_cons_self).elim
      | sealed d => exact ⟨hkey, d, rfl⟩
    | login _ hlogin => exact absurd hlogin.symm (Status.awaiting_ne_running _ _)
  -- the packet was sent in one of the steps
  have hsent : .sealed d ∈ (serverSteps steps).flatMap (sentOn n) := by
    rw [← hinstep.received, htoClient]
    exact List.mem_append_right _ List.mem_cons_self
  obtain ⟨st, hst, hd⟩ := List.mem_flatMap.mp hsent
  obtain ⟨hreach, hserver⟩ := (server_run h).of_mem hst
  have hdone := (moves_of_step hreach hserver (hquiet st hst)).done_of_sealed hd
  obtain ⟨⟨packet, hparse, -⟩, hlength⟩ : Decodes d ∧ d.length ≤ longestPlaintext := by
    obtain ⟨hg, ho⟩ := hclean st hst
    obtain ⟨c, e, o, c'⟩ := st
    obtain ⟨R, hR, rfl⟩ := reachable_lift hreach
    obtain ⟨R', rfl, hrstep⟩ := room_embeds L R _ _ _ hserver
    exact Room.reads_of_sealed (Room.named_of_reachable hR) hrstep hg ho hdone hd
  obtain ⟨key', hkeyLength, hkey', -⟩ := exists_key hC
  cases hkey.symm.trans hkey'
  have hwire : (OpenSimp.Packet.sealed d).wire L iv = some (aesEncrypt L key iv d) :=
    encrypt_eq_aesEncrypt hC hkey d
  have hframe := length_aesEncrypt_frame hC hkeyLength hiv d
  have hdata : aesEncrypt L key iv d ≠ [] := by
    intro hnil
    rw [hnil] at hframe
    simp at hframe
  have hfits : (aesEncrypt L key iv d).length ≤ s.client.room := by
    rw [hframe, hroom]
    rw [longestPlaintext] at hlength
    omega
  have hread : read L user seed (aesEncrypt L key iv d) s.client =
      some ({ s.client with
        status := .running key
        textbox := s.client.textbox ++ [packet.line] }, []) := by
    rw [read, if_neg hdata, hstatus]
    simp only [aesDecrypt_wire hC hkey hkeyLength hiv hwire, Option.bind_eq_bind, Option.bind_some,
      hparse]
    rfl
  exact ⟨_, _, .reads htoClient hwire (program_read_iff.mpr ⟨hiv, hfits, hread⟩)⟩

end Rust

namespace Toy

/-- Whether all that a step encrypts can be read at once. -/
def readable (st : System.Step Config Event Obs) : Bool :=
  st.obs.acts.all fun
    | .sent _ (.sealed d) => decide (d.length ≤ longestPlaintext) &&
        (Rust.parsePacket d).any fun packet => packet.starter = d.takeWhile (· ≠ separator)
    | _ => true

lemma clean_of_readable {userdata : Bytes} {st : System.Step Config Event Obs}
    (hreach : (server L).Reachable (Config.init userdata) st.pre)
    (hstep : (server L).step st.pre st.event st.obs st.post) (h : readable st = true) :
    ¬ st.event.Garbles L st.pre ∧ ¬ st.event.Oversized L st.pre := by
  obtain ⟨c, e, o, c'⟩ := st
  obtain ⟨R, hR, rfl⟩ := reachable_lift hreach
  obtain ⟨R', rfl, hrstep⟩ := room_embeds L R _ _ _ hstep
  have hN := Room.named_of_reachable hR
  have hread : ∀ p d, .sent p (.sealed d) ∈ o.acts → Decodes d ∧ d.length ≤ longestPlaintext := by
    intro p d hact
    have hd := List.all_eq_true.mp h _ hact
    rw [Bool.and_eq_true, decide_eq_true_eq, Option.any_eq_true] at hd
    obtain ⟨hlength, packet, hparse, hstarter⟩ := hd
    exact ⟨⟨packet, hparse, of_decide_eq_true hstarter⟩, hlength⟩
  refine ⟨(Room.Step.decodes_iff hN hrstep).mp fun p d hact _ => (hread p d hact).1, ?_⟩
  cases hrstep with
  | accepted | declined => exact not_false
  | @served i w r q hr hserve =>
    rintro ⟨r', req, hr', hreq, hover⟩
    rw [Room.config_row?, hr, Option.some.injEq] at hr'
    subst hr'
    exact Room.not_oversized_of_length_le hN hr hreq hserve
      (fun p d hact _ => (hread p d hact).2) hover

end Toy

/-- Dora's client can read Alice's answer. -/
theorem work_proceeds_toy :
    ∃ steps s key, Toy.doraPlays Toy.anyCase (Toy.doraTypes.take 12) = some (steps, s) ∧
      s.client.status = .running key ∧
      ∃ o s',
        (Rust.session Toy.anyCase Toy.dora 1).step s (.reads (List.replicate 12 0) []) o s' := by
  have hsome : (Toy.doraPlays Toy.anyCase (Toy.doraTypes.take 12)).map (fun x =>
      (x.2.client.status, x.2.toClient,
        (serverSteps x.1).any (Toy.handlesCommand Toy.anyCase),
        (serverSteps x.1).all Toy.readable)) =
      some (.running ((Toy.anyCase.hexDecode serverKey).getD []),
        [.sealed (chatPacket (ascii "hey") (ascii "alice"))], false, true) := by decide +kernel
  obtain ⟨⟨steps, s⟩, hplay, heq⟩ := Option.map_eq_some_iff.mp hsome
  simp only [Prod.mk.injEq] at heq
  obtain ⟨hstatus, htoClient, hany, hall⟩ := heq
  have hrun := Session.run_of_play hplay
  refine ⟨steps, s, _, hplay, hstatus, ?_⟩
  refine Rust.work_proceeds Toy.anyCase Toy.anyCase_cipherLaws Toy.dora_lawful 1 hrun
    (Toy.not_intrudes_of_not_handlesCommand hany) ?_ hstatus (by simp [htoClient]) _ _ rfl
  intro st hst
  obtain ⟨hreach, hstep⟩ := (server_run hrun).of_mem hst
  exact Toy.clean_of_readable hreach hstep (List.all_eq_true.mp hall st hst)

end OpenSimp
