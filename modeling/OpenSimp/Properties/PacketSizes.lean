import OpenSimp.Properties.Memory
import OpenSimp.Properties.Decoding

/-!
# The sizes of packets

Both clients read a packet into 4096 bytes. The server bounds chat packets by its own buffer, but
adds text to a command that it does not know, a blank for every free slot to a message, and the
roster to every announcement.
-/

namespace OpenSimp

open Bytes FaultState System ServerNetwork

variable {R : Room} {L : Library} {w : World} {i : ℕ} {r : Row} {req : Request} {q : Reply}
  {c : Config} {d : Bytes}

/-- The length of the encrypted packet of a plaintext: the nonce, the plaintext and the tag. -/
def packetLength (d : Bytes) : ℕ := Cryptography.nonceLength + d.length + 16

/-- The size of the buffer that both clients read a packet into. -/
def readSize : ℕ := 4096

/-- A `Done` client reads every packet that the event encrypts for it at once. -/
def Config.PacketsFit (c : Config) (m : Machine) : Prop :=
  ∀ p d, .sent p (.sealed d) ∈ m.acts →
    (∃ k r, c.row? k = some r ∧ r.sock = p ∧ r.status = .done) → packetLength d ≤ readSize

/-- The longest plaintext of a packet that is read at once. -/
def longestPlaintext : ℕ := 4068

lemma packetLength_le_readSize : packetLength d ≤ readSize ↔ d.length ≤ longestPlaintext := by
  rw [packetLength, Cryptography.nonceLength, readSize, longestPlaintext]
  omega

/-! ### Lengths -/

/-- The length of the reply to the unknown command `text`. -/
def echoLength (text : Bytes) : ℕ :=
  if (0 : Byte) ∈ text then (cstr text).length + 10 else text.length + 49

/-- The length of the message that the `msg` command `text` of `sender` makes. Every slot that the
command leaves free adds a blank. -/
def messageLength (sender text : Bytes) : ℕ :=
  if (0 : Byte) ∈ text then sender.length + (cstr text).length + 5
  else sender.length + text.length + (511 - text.count space) + 6

/-- The length of a join or leave packet about `who`. -/
def rosterLength (who : Bytes) (ids : List Bytes) : ℕ :=
  2 + who.length + ((ids.filter (· ≠ sentinel)).map fun a => a.length + 1).sum

lemma length_cstr_echo (text : Bytes) :
    (cstr (ascii "6" ++ [separator] ++
      (ascii "Command " ++ text ++ ascii " was not found. Type /help to get help."))).length =
      echoLength text := by
  have hhead : (0 : Byte) ∉ ascii "6" ++ [separator] ++ ascii "Command " := by decide
  have htail : (0 : Byte) ∉ ascii " was not found. Type /help to get help." := by decide
  have hlen : (ascii "6" ++ [separator] ++ ascii "Command ").length = 10 := rfl
  have hlen' : (ascii " was not found. Type /help to get help.").length = 39 := rfl
  rw [List.append_assoc (ascii "Command "), ← List.append_assoc (ascii "6" ++ [separator]),
    cstr_append hhead, List.length_append, hlen, echoLength]
  split_ifs with h0
  · rw [cstr_append_of_nul_mem h0]
    omega
  · rw [cstr_append h0, cstr_of_nul_not_mem htail, List.length_append, hlen']
    omega

lemma length_cstr_message {text x sender : Bytes} {args : List Bytes}
    (hargs : Lexer.lex text (List.replicate Executor.slots []) space = .ok args)
    (hcmd : args.getD 0 [] = ascii "msg") (hx : args.getD 1 [] = x) (hvalid : ValidAlias x)
    (hsender : (0 : Byte) ∉ sender) :
    (cstr (ascii "6" ++ [separator] ++ directText x sender args)).length =
      messageLength sender text := by
  obtain ⟨rest, htext, hdirect⟩ := directText_of_lex hargs hcmd hx hvalid.ne_nil sender
  have hmsg : (0 : Byte) ∉ ascii "msg" ++ [space] ++ (x ++ [space]) := by
    simp [hvalid.nul_not_mem, ascii, space]
  have hhead : (0 : Byte) ∉ ascii "6" ++ [separator] ++
      (ascii "[" ++ x ++ ascii " -> " ++ sender ++ ascii "]: ") := by
    simp [hvalid.nul_not_mem, hsender, ascii, separator]
  have hblanks : (0 : Byte) ∉ List.replicate (511 - text.count space) space :=
    fun h => absurd (List.eq_of_mem_replicate h) (by decide)
  have hlen : (ascii "6" ++ [separator] ++
      (ascii "[" ++ x ++ ascii " -> " ++ sender ++ ascii "]: ")).length =
      x.length + sender.length + 10 := by
    simp only [List.length_append, List.length_singleton, ascii, List.length_map]
    simp
    omega
  have hmsgLen : (ascii "msg" ++ [space] ++ (x ++ [space])).length = x.length + 5 := by
    simp only [List.length_append, List.length_singleton, ascii, List.length_map]
    simp
    omega
  rw [hdirect, ← List.append_assoc, cstr_append hhead, List.length_append, hlen, messageLength]
  split_ifs with h0
  · have h0' : (0 : Byte) ∈ rest := by
      have hmem : (0 : Byte) ∈ text ++ [space] := List.mem_append_left _ h0
      rw [htext, List.mem_append] at hmem
      exact hmem.resolve_left hmsg
    have hcstr := congrArg (fun s => (cstr s).length) htext
    simp only [cstr_append_of_nul_mem h0, cstr_append hmsg, List.length_append] at hcstr
    rw [cstr_append_of_nul_mem h0']
    simp only [List.length_append] at hmsgLen
    omega
  · have h0' : (0 : Byte) ∉ rest := by
      intro hmem
      have hmem' : (0 : Byte) ∈ text ++ [space] := htext ▸ List.mem_append_right _ hmem
      rcases List.mem_append.mp hmem' with h | h
      · exact h0 h
      · exact absurd (List.mem_singleton.mp h) (by decide)
    have hlength := congrArg List.length htext
    rw [List.length_append, List.length_append, hmsgLen, List.length_singleton] at hlength
    rw [cstr_append h0', cstr_of_nul_not_mem hblanks, List.length_append, List.length_replicate]
    omega

lemma length_rosterPacket (ids : List Bytes) (x : Announcement Bytes) :
    (rosterPacket ids x).length = rosterLength x.who ids := by
  have htag : (rosterTag x).length = 1 := by
    cases x <;> rfl
  have hroster : (rosterText ids).length =
      ((ids.filter (· ≠ sentinel)).map fun a => a.length + 1).sum := List.length_flatMap
  rw [rosterPacket_eq, List.length_append, List.length_cons, List.length_append, htag, hroster,
    rosterLength]
  omega

/-! ### Packets that are not read at once -/

/-- The requests that cause a packet which is longer than the clients' buffer: a join or leave
packet of a long roster, the reply to a long command, or the message of a command that is long
together with its free slots. -/
inductive Config.Oversized (c : Config) (L : Library) (w : World) (i : ℕ) (r : Row) :
    Request → Prop where
  | roster {req : Request} {x : Announcement Bytes} (hx : c.announcement L r req = some x)
      (hlistened : c.Listened w r)
      (hlong : longestPlaintext <
        rosterLength x.who (announced i c.server.clientidArray (some x))) :
      Oversized c L w i r req
  | unknown {text : Bytes} {args : List Bytes} (hargs : Lexer.lex text
        (List.replicate Executor.slots []) space = .ok args)
      (hcmd : args.getD 0 [] ∉ commandNames) (hlong : longestPlaintext < echoLength text) :
      Oversized c L w i r (.command text)
  | direct {text : Bytes} {args : List Bytes} {k : ℕ} {target : Row} (hargs : Lexer.lex text
        (List.replicate Executor.slots []) space = .ok args) (hcmd : args.getD 0 [] = ascii "msg")
      (htarget : c.row? k = some target) (hid : target.clientid = args.getD 1 [])
      (hother : target.clientid ≠ r.clientid) (hdone : target.status = .done)
      (hlong : longestPlaintext < messageLength r.clientid text) :
      Oversized c L w i r (.command text)

/-- The event causes such a packet. -/
def Event.Oversized (L : Library) (c : Config) : Event → Prop
  | .accept _ _ => False
  | .receive i w => ∃ r req, c.row? i = some r ∧ c.request w r L = .ok req ∧
      c.Oversized L w i r req

/-- The direct replies with a fixed text are short. -/
lemma length_direct_le {str : Bytes} (h : str.length ≤ 80) :
    (cstr (ascii "6" ++ [separator] ++ str)).length ≤ longestPlaintext := by
  have hle := length_cstr_le (ascii "6" ++ [separator] ++ str)
  rw [List.length_append] at hle
  have hhead : (ascii "6" ++ [separator]).length = 2 := rfl
  rw [longestPlaintext]
  omega

lemma Room.length_le_of_not_oversized (hN : R.Named) (hr : R.rows[i]? = some r)
    (hreq : R.request L w r = .ok req) (hserve : R.serve L w i r = .ok q)
    (ho : ¬ R.config.Oversized L w i r req) {p : Sock} (hact : .sent p (.sealed d) ∈ q.acts)
    (hp : R.DoneOn p) : d.length ≤ longestPlaintext := by
  have hnamed := hN.named r (List.mem_of_getElem? hr)
  have hfits := Room.request_fits hreq
  cases Room.serve_encrypts hN hr hreq hserve hact with
  | roster hx hhears =>
    rw [length_rosterPacket]
    by_contra hlong
    exact ho (.roster hx (Room.listened_of_hears hhears) (not_le.mp hlong))
  | welcome hu =>
    apply length_direct_le
    have hlen := hu.2.2.1
    have hwelcome : (ascii "Everybody welcome the new user ").length = 31 := rfl
    rw [List.length_append]
    omega
  | chat hblank =>
    obtain ⟨req', hreq', hroom⟩ := (Room.serve_isOk hnamed).mp ⟨q, hserve⟩
    cases hreq.symm.trans hreq'
    have hshort := hroom.resolve_left (by simp [hblank])
    rw [longestPlaintext]
    omega
  | console => exact Nat.zero_le _
  | told h =>
    cases h with
    | unreadable | blank | plugins | self => exact length_direct_le (by decide)
    | help args =>
      apply length_direct_le
      rw [helpReply]
      split_ifs
      · decide
      · decide
    | unknown hargs hcmd =>
      rw [length_cstr_echo]
      by_contra hlong
      exact ho (.unknown hargs hcmd (not_le.mp hlong))
    | @direct text args target hargs hcmd hmem hid hs hother =>
      have hsender := (hnamed.valid hfits.1).nul_not_mem
      rw [length_cstr_message hargs hcmd hid.symm (hN.validAlias hmem hs) hsender]
      by_contra hlong
      obtain ⟨k, hk⟩ := List.mem_iff_getElem?.mp hmem
      exact ho (.direct hargs hcmd ((Room.config_row? _ k).trans hk) hid hother
        ((Room.doneOn_self hk).mp hp) (not_le.mp hlong))

lemma Room.not_oversized_of_length_le (hN : R.Named) (hr : R.rows[i]? = some r)
    (hreq : R.request L w r = .ok req) (hserve : R.serve L w i r = .ok q)
    (h : ∀ p d, .sent p (.sealed d) ∈ q.acts → R.DoneOn p → d.length ≤ longestPlaintext) :
    ¬ R.config.Oversized L w i r req := by
  have hnamed := hN.named r (List.mem_of_getElem? hr)
  have hfits := Room.request_fits hreq
  intro ho
  cases ho with
  | roster hx hlistened hlong =>
    obtain ⟨p, hhears, hp⟩ := Room.hears_of_listened hlistened
    have hlen := h p _ (Room.sent_rosterPacket hN hr hreq hserve hx hhears) hp
    rw [length_rosterPacket] at hlen
    exact absurd hlen (not_le.mpr hlong)
  | unknown hargs hcmd hlong =>
    have hdone := hnamed.eq_done hfits.1 hfits.2
    have hacts := Room.acts_of_unknown hargs hcmd (Room.acts_of_command hreq hserve)
    rw [Row.polled_sock] at hacts
    have hlen := h r.sock _ (hacts ▸ List.mem_singleton_self _)
      ((Room.doneOn_self hr).mpr hdone)
    rw [length_cstr_echo] at hlen
    exact absurd hlen (not_le.mpr hlong)
  | @direct text args k target hargs hcmd htarget hid hother hdone hlong =>
    rw [Room.config_row?] at htarget
    have hmem := List.mem_of_getElem? htarget
    have hundone : target.status ≠ .undone := fun hs => by cases hs.symm.trans hdone
    have hact := Room.sent_of_msg hN hreq hserve hargs hcmd hmem hid hundone hother
    have hlen := h _ _ hact ⟨target, hmem, rfl, hdone⟩
    rw [length_cstr_message hargs hcmd hid.symm ((hN.named target hmem).valid hundone)
      (hnamed.valid hfits.1).nul_not_mem] at hlen
    exact absurd hlen (not_le.mpr hlong)

/-- A request that would make the server send a long packet is answered. -/
lemma Room.serve_isOk_of_oversized (hnamed : r.Named) (hreq : R.request L w r = .ok req)
    (ho : R.config.Oversized L w i r req) : ∃ q, R.serve L w i r = .ok q := by
  refine (Room.serve_isOk hnamed).mpr ⟨req, hreq, ?_⟩
  have hslots : ∀ {text args}, Lexer.lex text (List.replicate Executor.slots []) space =
      .ok args → (Request.command text).HasRoom r.clientid :=
    fun hargs => (lex_slots_isOk _).mp ⟨_, hargs⟩
  cases ho with
  | unknown hargs => exact hslots hargs
  | direct hargs => exact hslots hargs
  | roster hx =>
    cases req with
    | chat text =>
      rw [Config.announcement] at hx
      split_ifs at hx with hleaves
      refine hleaves.imp_right fun hs => ?_
      exact absurd (hnamed.undone_iff.mpr hs) (Room.request_fits hreq).1
    | command text => cases hx
    | _ => trivial

lemma Room.config_packetsFit {m : Machine} : R.config.PacketsFit m ↔
    ∀ p d, .sent p (.sealed d) ∈ m.acts → R.DoneOn p → d.length ≤ longestPlaintext := by
  simp only [Config.PacketsFit, Room.exists_config_row?, Room.DoneOn, packetLength_le_readSize]

lemma Room.packetsFit_receive_iff (hN : R.Named) (hr : R.rows[i]? = some r) :
    R.config.PacketsFit ((Event.code L (.receive i w)).final R.config.machine) ↔
      ¬ (Event.receive i w).Oversized L R.config := by
  have hnamed := hN.named r (List.mem_of_getElem? hr)
  have hrow := (Room.config_row? R i).trans hr
  rw [Room.config_packetsFit]
  rcases Room.code_receive_final hr L w with ⟨q, hserve, hfinal⟩ | ⟨⟨e, hserve⟩, huntouched⟩
  · obtain ⟨req, hreq, -⟩ := Room.serve_outcome hserve
    rw [hfinal]
    have hoversized : (Event.receive i w).Oversized L R.config ↔ R.config.Oversized L w i r req :=
      Room.exists_config_request hr hreq
    rw [hoversized]
    constructor
    · exact Room.not_oversized_of_length_le hN hr hreq hserve
    · intro ho p d hact hp
      exact Room.length_le_of_not_oversized hN hr hreq hserve ho hact hp
  · -- an event that fails has sent nothing
    rw [huntouched.2]
    refine iff_of_true (by simp) ?_
    rintro ⟨r', req', hr', hreq', ho⟩
    cases hrow.symm.trans hr'
    rw [Room.config_request] at hreq'
    obtain ⟨q, hq⟩ := Room.serve_isOk_of_oversized hnamed hreq' ho
    cases hserve.symm.trans hq

lemma Room.packetsFit_accept {p : Sock} (hp : R.live p = false) :
    R.config.PacketsFit ((Event.code L (.accept p w)).final R.config.machine) := by
  rw [Event.code, Room.config_machine]
  by_cases hstatus : w.status = .done
  · rw [final_of_run (connectClients_run_done L hp hstatus)]
    intro p' d hact
    cases List.mem_singleton.mp hact
  · rw [final_of_run (connectClients_run_ne L hp hstatus)]
    intro p' d hact
    cases hact

/-- In every state the server reaches, an event sends `Done` clients only packets that they read at
once, unless it announces to somebody with a long roster, or is a long command. -/
theorem packets_fit_iff (L : Library) {userdata : Bytes} {e : Event}
    (h : (server L).Reachable (Config.init userdata) c) (he : e.Enabled c) :
    c.PacketsFit ((e.code L).final c.machine) ↔ ¬ e.Oversized L c := by
  obtain ⟨R, hR, rfl⟩ := reachable_lift h
  have hN := Room.named_of_reachable hR
  cases e with
  | accept p w => exact iff_of_true (Room.packetsFit_accept he) not_false
  | receive i w =>
    rw [Event.Enabled, Room.config_size] at he
    exact Room.packetsFit_receive_iff hN (List.getElem?_eq_getElem he)

theorem packets_fit_iff_toy :
    ∃ steps c, play toy (Config.init []) Toy.ready = some (steps, c) ∧
      (c.PacketsFit ((Event.code toy (.receive 0 Toy.asks)).final c.machine) ↔
        ¬ (Event.receive 0 Toy.asks).Oversized toy c) := by
  have hsome : (play toy (Config.init []) Toy.ready).map
      (fun x => decide ((Event.receive 0 Toy.asks).Enabled x.2)) = some true := by decide +kernel
  obtain ⟨⟨steps, c⟩, hplay, henabled⟩ := Option.map_eq_some_iff.mp hsome
  exact ⟨steps, c, hplay,
    packets_fit_iff toy (run_of_play hplay).reachable (of_decide_eq_true henabled)⟩

/-- Alice's command of 4060 letters, which the server does not know. -/
def Toy.stammer : Bytes := List.replicate 4060 97

lemma Toy.length_stammer : stammer.length = 4060 := List.length_replicate

lemma Toy.not_mem_stammer {b : Byte} (hb : b ≠ 97) : b ∉ stammer :=
  fun hmem => hb (List.eq_of_mem_replicate hmem)

lemma Toy.admissible_stammer : Admissible (53 :: stammer) where
  check := by
    apply decide_eq_true
    intro hmem
    rcases List.mem_cons.mp (mem_of_mem_cstr hmem) with h | h
    · exact absurd h (by decide)
    · exact not_mem_stammer (by decide) h
  length_lt := by
    rw [List.length_cons, length_stammer]
    omega

lemma Toy.stammer_not_mem_commandNames : stammer ∉ commandNames := by
  intro hmem
  have hshort : ∀ n ∈ commandNames, n.length ≤ 7 := by decide
  have hlen := hshort stammer hmem
  rw [length_stammer] at hlen
  omega

/-- The command fits the packet it comes in, and the reply to it does not fit one. -/
theorem not_packets_fit_toy :
    ¬ ∀ c, (server toy).Reachable (Config.init []) c → ∀ e : Event, e.Enabled c →
      c.PacketsFit ((e.code toy).final c.machine) := by
  obtain ⟨steps, c, r, hplay, hr, hdone, hinterval, -⟩ := Toy.exists_ready
  have hreach := (run_of_play hplay).reachable
  intro hall
  obtain ⟨R, hR, rfl⟩ := reachable_lift hreach
  have hlen : (53 :: Toy.stammer).length ≤ 4068 := by
    rw [List.length_cons, Toy.length_stammer]
    omega
  have hsends := Toy.sendsPlaintext hdone hinterval hlen
  generalize Toy.world .done (Toy.seals (53 :: Toy.stammer)) 1000 = w at hsends
  rw [Room.config_row?] at hr
  have henabled : (Event.receive 0 w).Enabled R.config := by
    rw [Event.Enabled, Room.config_size]
    exact (List.getElem?_eq_some_iff.mp hr).1
  have hfits := hall _ hreach (.receive 0 w) henabled
  have hnamed := (Room.named_of_reachable hR).named r (List.mem_of_getElem? hr)
  have hblank := Toy.not_mem_stammer (b := space) (by decide)
  have hreq := Room.request_of_sends (R := R) hsends
  rw [requestOfPlaintext_of_command Toy.admissible_stammer] at hreq
  obtain ⟨q, hserve⟩ := (Room.serve_isOk (i := 0) hnamed).mpr ⟨_, hreq, by
    rw [Request.HasRoom, List.count_eq_zero_of_not_mem hblank]
    decide⟩
  have hrun := Room.code_receive_run hr toy w
  rw [hserve] at hrun
  have hacts := Room.acts_of_unknown (Executor.lex_word hblank)
    Toy.stammer_not_mem_commandNames (Room.acts_of_command hreq hserve)
  rw [Row.polled_sock] at hacts
  rw [final_of_run hrun, Room.config_packetsFit] at hfits
  have hle := hfits r.sock _ (hacts ▸ List.mem_singleton_self _) ((Room.doneOn_self hr).mpr hdone)
  rw [length_cstr_echo, echoLength, if_neg (Toy.not_mem_stammer (by decide)), Toy.length_stammer,
    longestPlaintext] at hle
  omega

end OpenSimp
