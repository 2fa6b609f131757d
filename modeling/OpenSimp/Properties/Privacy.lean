import OpenSimp.Properties.DirectMessages
import OpenSimp.Properties.Relaying
import OpenSimp.Room.Conduct

/-!
# What stays between two clients

A command is answered to the client that runs it and, if it is a direct message, to the client
that it addresses. Nobody else can tell one such command from another: two runs that differ only
in what other clients whisper look the same to a client, step by step, and lead to the same state.
-/

namespace OpenSimp

open Bytes FaultState System ServerNetwork

variable {R R' : Room} {L : Library} {w w' : World} {i n : ℕ} {r : Row} {q : Reply} {e : Event}
  {o : Obs} {text : Bytes}

/-- The command is a direct message to the client on the connection `n`. -/
def Config.Addresses (c : Config) (n : ℕ) (text : Bytes) : Prop :=
  ∃ args k target, Lexer.lex text (List.replicate Executor.slots []) space = .ok args ∧
    args.getD 0 [] = ascii "msg" ∧ c.row? k = some target ∧ target.conn = n ∧
    target.clientid = args.getD 1 []

/-- Another client than that on the connection `n` runs a command that does not address it, or sends
a packet that cannot be decrypted. -/
def Config.Whispers (c : Config) (L : Library) (n i : ℕ) (w : World) : Prop :=
  ∃ r, c.row? i = some r ∧ r.conn ≠ n ∧ (c.request w r L = .ok .unreadable ∨
    ∃ text, c.request w r L = .ok (.command text) ∧ ¬ c.Addresses n text)

/-- The events are the same, or differ only in what is whispered. -/
inductive Event.Masks (L : Library) (n : ℕ) (c : Config) : Event → Event → Prop where
  | same (e : Event) : Masks L n c e e
  | whispered {i : ℕ} {w w' : World} (h : c.Whispers L n i w) (h' : c.Whispers L n i w')
      (hnow : w.now = w'.now) : Masks L n c (.receive i w) (.receive i w')

/-! ### Answers to commands -/

lemma Room.commandActs_sent {acts : List Act} (h : R.commandActs r text = .ok acts) {a : Act}
    (ha : a ∈ acts) :
    ∃ p packet, a = .sent p packet ∧
      (p = r.sock ∨ ∃ t ∈ R.rows, t.sock = p ∧ R.config.Addresses t.conn text) := by
  rw [Room.commandActs] at h
  cases hargs : Lexer.lex text (List.replicate Executor.slots []) space with
  | error fault => rw [hargs] at h; cases h
  | ok args =>
    rw [hargs, ok_bind] at h
    split_ifs at h with hhelp hplugins hmsg
    · cases h
      exact ⟨_, _, List.mem_singleton.mp ha, .inl rfl⟩
    · cases h
      exact ⟨_, _, List.mem_singleton.mp ha, .inl rfl⟩
    · cases h
      rw [Room.msgActs] at ha
      split_ifs at ha with hsentinel hself
      · simp at ha
      · exact ⟨_, _, List.mem_singleton.mp ha, .inl rfl⟩
      · cases hfind : R.rows.find? (·.clientid = args.getD 1 []) with
        | none =>
          rw [hfind] at ha
          simp at ha
        | some target =>
          rw [hfind] at ha
          have hid : target.clientid = args.getD 1 [] := by simpa using List.find?_some hfind
          have hmem : target ∈ R.rows := List.mem_of_find?_eq_some hfind
          obtain ⟨k, hk⟩ := List.getElem?_of_mem hmem
          have haddresses : R.config.Addresses target.conn text :=
            ⟨args, k, target, hargs, hmsg, (Room.config_row? R k).trans hk, rfl, hid⟩
          exact ⟨_, _, List.eq_of_mem_replicate ha, .inr ⟨target, hmem, rfl, haddresses⟩⟩
    · cases h
      exact ⟨_, _, List.mem_singleton.mp ha, .inl rfl⟩

/-- Restarting the client's clock first changes nothing about the answer. -/
lemma Room.commandActs_polled :
    (R.polled w i r).commandActs (r.polled w) text = R.commandActs r text := by
  have hrows : ((R.polled w i r).rows.map fun r => (r.sock, r.clientid)) =
      R.rows.map fun r => (r.sock, r.clientid) := by
    have hsame := congrArg (List.map fun x : Sock × Bytes × AuthStatus => (x.1, x.2.1))
      (Room.polled_same (R := R) (w := w) (i := i) (r := r))
    rw [List.map_map, List.map_map] at hsame
    exact hsame
  simp only [Room.commandActs, Row.polled_sock,
    Room.msgActs_congr hrows Row.polled_sock Row.polled_clientid]

/-- A packet of a client that is let through restarts its clock. -/
lemma Room.polled_of_packet {req : Request} (hN : R.Named) (hr : R.rows[i]? = some r)
    (hreq : R.request L w r = .ok req) (hread : req.Read)
    (hfits : req.Fits r.status → r.status ≠ .undone ∧ r.status ≠ .keyReceived) :
    R.polled w i r = R.restarted i w.now := by
  obtain ⟨hundone, hkey⟩ := hfits (Room.request_fits hreq)
  have hdone : r.status = .done := (hN.named r (List.mem_of_getElem? hr)).eq_done hundone hkey
  obtain ⟨hopen, hdata⟩ := (Room.request_read_iff hreq).mp hread
  exact if_pos ⟨hopen, hdata, hdone⟩

/-- What is whispered restarts the clock of its author, and nobody else is sent anything. -/
lemma Room.serve_whispers (hN : R.Named) (hr : R.rows[i]? = some r)
    (hwhispers : R.config.Whispers L n i w) (hserve : R.serve L w i r = .ok q) :
    q.room = R.restarted i w.now ∧ ∀ t ∈ R.rows, t.conn = n → sentTo t.sock q.acts = [] := by
  obtain ⟨r', hr', hconn, hreq⟩ := hwhispers
  rw [Room.config_row?, hr, Option.some.injEq] at hr'
  subst hr'
  rw [Room.config_request] at hreq
  -- the author is on another socket
  have hauthor : ∀ t ∈ R.rows, t.conn = n → t.sock ≠ r.sock := by
    intro t ht hn hsock
    have heq : t = r := List.eq_of_map_nodup R.nodup_sock ht (List.mem_of_getElem? hr) hsock
    exact hconn (heq ▸ hn)
  rcases hreq with hreq | ⟨text, hreq, hquiet⟩
  · have hpolled := Room.polled_of_packet hN hr hreq trivial id
    rw [Room.serve, hreq, ok_bind, hpolled] at hserve
    cases hserve
    refine ⟨rfl, fun t ht hn => ?_⟩
    rw [List.eq_nil_iff_forall_not_mem]
    intro packet hpacket
    injection List.mem_singleton.mp (mem_sentTo.mp hpacket) with hsock
    exact hauthor t ht hn (hsock.trans Row.polled_sock)
  · have hpolled := Room.polled_of_packet hN hr hreq trivial id
    rw [Room.serve, hreq, ok_bind, Room.respond, Room.commandActs_polled] at hserve
    cases hacts : R.commandActs r text with
    | error fault => rw [hacts] at hserve; cases hserve
    | ok acts =>
      rw [hacts] at hserve
      cases hserve
      refine ⟨hpolled, fun t ht hn => ?_⟩
      rw [List.eq_nil_iff_forall_not_mem]
      intro packet hpacket
      obtain ⟨p, packet', hsent, hp⟩ := Room.commandActs_sent hacts (mem_sentTo.mp hpacket)
      cases hsent
      rcases hp with hp | ⟨t', ht', hsock, haddresses⟩
      · exact hauthor t ht hn hp
      · have heq : t' = t := List.eq_of_map_nodup R.nodup_sock ht' ht hsock
        exact hquiet (hn ▸ heq ▸ haddresses)

/-! ### Steps -/

/-- A step in which something is whispered leads to the same state as any other such step. -/
lemma Room.Step.whispered (hN : R.Named) (hstep : Room.Step L R (.receive i w) o R')
    (hwhispers : R.config.Whispers L n i w) :
    R' = R.restarted i w.now ∧ sentOn n ⟨R.config, .receive i w, o, R'.config⟩ = [] := by
  obtain ⟨r, q, hr, hserve, rfl, rfl⟩ := hstep.served_inv
  obtain ⟨hroom, hsilent⟩ := Room.serve_whispers hN hr hwhispers hserve
  refine ⟨hroom, ?_⟩
  by_cases hmem : ∃ t ∈ R.rows, t.conn = n
  · obtain ⟨t, ht, rfl⟩ := hmem
    rw [sentOn_of_mem ht]
    exact hsilent t ht rfl
  · apply sentOn_of_not_mem
    · exact fun t ht hn => hmem ⟨t, ht, hn⟩
    · intro t ht hn
      obtain ⟨t', ht', hconn⟩ := Room.exists_conn_of_serve hr hserve ht
      exact hmem ⟨t', ht', hconn.trans hn⟩

/-- An event of a configuration has one step. -/
lemma server_step_unique {c c₁ c₂ : Config} {o₁ o₂ : Obs} (h₁ : (server L).step c e o₁ c₁)
    (h₂ : (server L).step c e o₂ c₂) : o₁ = o₂ ∧ c₁ = c₂ := by
  obtain ⟨-, m₁, hrun₁, rfl, rfl⟩ := h₁
  obtain ⟨-, m₂, hrun₂, rfl, rfl⟩ := h₂
  rw [hrun₁] at hrun₂
  cases hrun₂
  exact ⟨rfl, rfl⟩

/-! ### Runs -/

/-- Two runs that differ only in what other clients whisper look the same to a client in every step,
and lead to the same state. -/
theorem direct_messages_private (L : Library) (userdata : Bytes) (n : ℕ)
    {steps steps' : List (Step Config Event Obs)} {c c' : Config}
    (h : (server L).Run (Config.init userdata) steps c)
    (h' : (server L).Run (Config.init userdata) steps' c')
    (hmasks : List.Forall₂ (fun st st' => Event.Masks L n st.pre st.event st'.event) steps steps') :
    c = c' ∧ List.Forall₂ (fun st st' => sentOn n st = sentOn n st') steps steps' := by
  refine h.unwind h' hmasks rfl fun st st' hreach hstep hstep' hmask hpre => ?_
  obtain ⟨c₁, e₁, o₁, c₁'⟩ := st
  obtain ⟨c₂, e₂, o₂, c₂'⟩ := st'
  cases hpre
  cases hmask with
  | same e =>
    obtain ⟨rfl, rfl⟩ := server_step_unique hstep hstep'
    exact ⟨rfl, rfl⟩
  | @whispered i w w' hw hw' hnow =>
    obtain ⟨R, hR, rfl⟩ := reachable_lift hreach
    have hN := Room.named_of_reachable hR
    obtain ⟨R₁, rfl, hroom⟩ := room_embeds L _ _ _ _ hstep
    obtain ⟨R₂, rfl, hroom'⟩ := room_embeds L _ _ _ _ hstep'
    obtain ⟨rfl, hsilent⟩ := hroom.whispered hN hw
    obtain ⟨rfl, hsilent'⟩ := hroom'.whispered hN hw'
    refine ⟨by rw [hnow], ?_⟩
    rw [hsilent, hsilent']

/-! ### Carol whispers to Alice -/

/-- Alice, Bob and Carol are there. -/
def Toy.carolIsThere : List Event := carolChats.dropLast

/-- Carol's message to Alice. -/
def Toy.tellsAlice (text : Bytes) : World :=
  world .done (seals (53 :: msgCommand (ascii "alice") text)) 1000

lemma Toy.whispers_tellsAlice {c : Config} (hc : (server toy).Reachable (Config.init []) c)
    (hbob : c.row? 1 = some ⟨⟨ascii "bob", false, .done, 0⟩, 1, 2⟩)
    (hcarol : c.row? 2 = some ⟨⟨ascii "carol", false, .done, 0⟩, 2, 3⟩) {text : Bytes}
    (hlen : (53 :: msgCommand (ascii "alice") text).length ≤ 4068)
    (hroom : (msgCommand (ascii "alice") text).count space ≤ 511)
    (hadm : Admissible (53 :: msgCommand (ascii "alice") text)) :
    c.Whispers toy 1 2 (tellsAlice text) := by
  obtain ⟨R, -, rfl⟩ := reachable_lift hc
  have hreq := Room.request_of_sends (R := R)
    (sendsPlaintext (r := ⟨⟨ascii "carol", false, .done, 0⟩, 2, 3⟩) rfl rfl hlen)
  rw [requestOfPlaintext_of_command hadm] at hreq
  refine ⟨_, hcarol, by decide, .inr ⟨_, hreq, ?_⟩⟩
  rintro ⟨args, k, target, hargs, -, htarget, hconn, hid⟩
  rw [lex_msgCommand (by decide) hroom] at hargs
  cases hargs
  rw [Room.config_row?] at hbob htarget
  -- only Bob is on the connection, and he has another alias
  have heq := List.eq_of_map_nodup R.nodup_conn (List.mem_of_getElem? htarget)
    (List.mem_of_getElem? hbob) hconn
  rw [heq] at hid
  have hne : ascii "bob" ≠ ascii "alice" := by decide
  exact hne hid

/-- Bob cannot tell what Carol tells Alice. -/
theorem direct_messages_private_toy :
    ∃ steps c st st', play toy (Config.init []) Toy.carolIsThere = some (steps, c) ∧
      fire toy c (.receive 2 (Toy.tellsAlice (ascii "hi"))) = some st ∧
      fire toy c (.receive 2 (Toy.tellsAlice (ascii "yo"))) = some st' ∧
      sentOn 0 st ≠ sentOn 0 st' ∧ st.post = st'.post ∧
      List.Forall₂ (fun st st' => sentOn 1 st = sentOn 1 st') (steps ++ [st]) (steps ++ [st']) := by
  have hsome : (play toy (Config.init []) Toy.carolIsThere).map (fun x =>
      (x.2.row? 1, x.2.row? 2,
        (fire toy x.2 (.receive 2 (Toy.tellsAlice (ascii "hi")))).map (sentOn 0),
        (fire toy x.2 (.receive 2 (Toy.tellsAlice (ascii "yo")))).map (sentOn 0))) =
      some (some ⟨⟨ascii "bob", false, .done, 0⟩, 1, 2⟩,
        some ⟨⟨ascii "carol", false, .done, 0⟩, 2, 3⟩,
        some [directPacket (directText (ascii "alice") (ascii "carol")
          (msgArgs (ascii "alice") (ascii "hi")))],
        some [directPacket (directText (ascii "alice") (ascii "carol")
          (msgArgs (ascii "alice") (ascii "yo")))]) := by decide +kernel
  obtain ⟨⟨steps, c⟩, hplay, heq⟩ := Option.map_eq_some_iff.mp hsome
  simp only [Prod.mk.injEq] at heq
  obtain ⟨hbob, hcarol, hhi, hyo⟩ := heq
  obtain ⟨st, hst, hsent⟩ := Option.map_eq_some_iff.mp hhi
  obtain ⟨st', hst', hsent'⟩ := Option.map_eq_some_iff.mp hyo
  have hrun := run_of_play hplay
  obtain ⟨c₁, e₁, o₁, c₁'⟩ := st
  obtain ⟨c₂, e₂, o₂, c₂'⟩ := st'
  obtain ⟨rfl, rfl, hstep⟩ := fire_eq_some hst
  obtain ⟨hpre, rfl, hstep'⟩ := fire_eq_some hst'
  cases hpre
  have hmasks : Event.Masks toy 1 c₁ (.receive 2 (Toy.tellsAlice (ascii "hi")))
      (.receive 2 (Toy.tellsAlice (ascii "yo"))) := by
    refine .whispered ?_ ?_ rfl
    · exact Toy.whispers_tellsAlice hrun.reachable hbob hcarol (by decide) (by decide)
        ⟨by decide, by decide⟩
    · exact Toy.whispers_tellsAlice hrun.reachable hbob hcarol (by decide) (by decide)
        ⟨by decide, by decide⟩
  have hall := direct_messages_private toy [] 1 (hrun.snoc hstep) (hrun.snoc hstep')
    (List.rel_append (List.forall₂_same.mpr fun st _ => .same st.event) (.cons hmasks .nil))
  refine ⟨steps, c₁, _, _, hplay, hst, hst', ?_, hall⟩
  rw [hsent, hsent']
  decide +kernel

end OpenSimp
