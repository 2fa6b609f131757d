import OpenSimp.Clients.Rust
import OpenSimp.Room.Messages
import OpenSimp.Room.Presence
import OpenSimp.Toy.Library

/-!
# What the Rust client makes of the server's packets

`parse_packet` reads a packet only if its fields are UTF-8 and none is missing. `Config.Garbles`
lists the polls whose packets it does not read: a client that is turned away before it has an
alias, an empty relay, and texts of clients that are not UTF-8 or are cut at a NUL.
-/

namespace OpenSimp

open Bytes FaultState System ServerNetwork Utf8

variable {R : Room} {L : Library} {w : World} {i : ℕ} {r : Row} {req : Request} {q : Reply}

/-! ### Texts -/

/-- The starter of the packets that are decoded to a variant. -/
def Rust.Packet.starter : Rust.Packet → Bytes
  | .messagePacket _ _ => ascii "0"
  | .joinPacket _ => ascii "1"
  | .disconnectPacket _ => ascii "2"
  | .commandReplyPacket _ => ascii "5"
  | .serverDmPacket _ => ascii "6"

/-- The Rust client reads `d` as the variant its first field names. -/
def Decodes (d : Bytes) : Prop :=
  ∃ packet, Rust.parsePacket d = some packet ∧ packet.starter = d.takeWhile (· ≠ separator)

lemma isAliasChar_lt {c : Byte} (hc : isAliasChar c = true) : c < 0x80 := by
  simp only [isAliasChar, Bool.or_eq_true, Bool.and_eq_true, decide_eq_true_eq, beq_iff_eq,
    UInt8.le_iff_toNat_le] at hc
  rw [UInt8.lt_iff_toNat_lt]
  rcases hc with ((hc | hc) | hc) | rfl
  · exact lt_of_le_of_lt hc.2 (by decide)
  · exact lt_of_le_of_lt hc.2 (by decide)
  · exact lt_of_le_of_lt hc.2 (by decide)
  · decide

lemma ValidAlias.isAscii {a : Bytes} (ha : ValidAlias a) : IsAscii a :=
  fun _ hc => isAliasChar_lt (ha.mem hc)

lemma mem_rosterText {ids : List Bytes} (hids : Aliases ids) {c : Byte}
    (hc : c ∈ rosterText ids) : c < 0x80 ∧ c ≠ 0 := by
  obtain ⟨a, ha, hc⟩ := List.mem_flatMap.mp hc
  obtain ⟨hmem, hne⟩ := List.mem_filter.mp ha
  have hvalid := hids a hmem (by simpa using hne)
  rcases List.mem_cons.mp hc with rfl | hc
  · decide
  · exact ⟨hvalid.isAscii c hc, fun h0 => hvalid.nul_not_mem (h0 ▸ hc)⟩

/-- A packet of one field is read exactly if the field is UTF-8. -/
lemma decodes_field {starter : Bytes}
    (hstarter : starter ∈ [ascii "1", ascii "2", ascii "5", ascii "6"]) (field : Bytes) :
    Decodes (starter ++ separator :: field) ↔ Valid field := by
  have hsep : separator ∉ starter := by
    revert starter
    decide
  rw [Decodes, takeWhile_append_separator hsep, Rust.parsePacket_field hstarter]
  by_cases hfield : Valid field
  · rw [if_pos hfield]
    refine iff_of_true ?_ hfield
    simp only [List.mem_cons, List.not_mem_nil, or_false] at hstarter
    rcases hstarter with rfl | rfl | rfl | rfl
    · exact ⟨.joinPacket field, rfl, rfl⟩
    · exact ⟨.disconnectPacket field, rfl, rfl⟩
    · exact ⟨.commandReplyPacket field, rfl, rfl⟩
    · exact ⟨.serverDmPacket field, rfl, rfl⟩
  · rw [if_neg hfield]
    refine iff_of_false ?_ hfield
    rintro ⟨packet, h, -⟩
    cases h

lemma not_decodes_nil : ¬ Decodes [] := by
  rintro ⟨packet, h, -⟩
  cases h

/-- What the client reads of a text with an ASCII end is UTF-8 if the text is. -/
lemma valid_cstr_append {s t : Bytes} (ht : IsAscii t) :
    Valid (cstr (s ++ t)) ↔ Valid (cstr s) := by
  by_cases hs : (0 : Byte) ∈ s
  · rw [cstr_append_of_nul_mem hs]
  · have hcstr : IsAscii (cstr t) := fun c hc => ht c (mem_of_mem_cstr hc)
    rw [cstr_append hs, cstr_of_nul_not_mem hs, valid_append_of_isAscii_right hcstr]

lemma valid_cstr_append_left {s t : Bytes} (hs : IsAscii s) (h0 : (0 : Byte) ∉ s) :
    Valid (cstr (s ++ t)) ↔ Valid (cstr t) := by
  rw [cstr_append h0, valid_append_of_isAscii_left hs]

/-- A packet of one field, sent as a C string. -/
lemma decodes_cstr_field {starter : Bytes}
    (hstarter : starter ∈ [ascii "1", ascii "2", ascii "5", ascii "6"]) (field : Bytes) :
    Decodes (cstr (starter ++ [separator] ++ field)) ↔ Valid (cstr field) := by
  have h0 : (0 : Byte) ∉ starter ++ [separator] := by
    revert starter
    decide
  rw [cstr_append h0, List.append_assoc, List.singleton_append, decodes_field hstarter]

/-- A join or leave packet is read exactly if it is not about a client without an alias. -/
lemma decodes_rosterPacket {ids : List Bytes} {x : Announcement Bytes}
    (hx : x.who ≠ sentinel → ValidAlias x.who) (hids : Aliases ids) :
    Decodes (rosterPacket ids x) ↔ x.who ≠ sentinel := by
  have hroster : IsAscii (rosterText ids) := fun c hc => (mem_rosterText hids hc).1
  have htag : rosterTag x ∈ [ascii "1", ascii "2", ascii "5", ascii "6"] := by
    cases x <;> simp [rosterTag]
  rw [rosterPacket_eq, decodes_field htag, valid_append_of_isAscii_right hroster]
  by_cases hs : x.who = sentinel
  · rw [hs]
    exact iff_of_false (by decide) (by simp)
  · exact iff_of_true (valid_of_isAscii (hx hs).isAscii) hs

lemma decodes_welcome {u : Bytes} (hu : ValidAlias u) :
    Decodes (cstr (ascii "6" ++ [separator] ++
      (ascii "Everybody welcome the new user " ++ u))) := by
  rw [decodes_cstr_field (by simp), valid_cstr_append hu.isAscii]
  decide

/-- The C string of a named client's chat packet. -/
lemma cstr_chatPacket {text clientid : Bytes} (h0 : (0 : Byte) ∉ text) (hid : ValidAlias clientid) :
    cstr (chatPacket text clientid) =
      ascii "0" ++ separator :: (text ++ separator :: clientid) := by
  have hpacket : chatPacket text clientid =
      ascii "0" ++ separator :: (text ++ separator :: clientid) := by
    simp [chatPacket]
  rw [hpacket, cstr_of_nul_not_mem]
  simp [h0, hid.nul_not_mem, ascii, separator]

/-- The chat packet of a named client is read exactly if its text is UTF-8 without a NUL. -/
lemma parsePacket_chat {text clientid : Bytes} (htext : separator ∉ cstr text)
    (hid : ValidAlias clientid) :
    Rust.parsePacket (cstr (chatPacket text clientid)) =
      if (0 : Byte) ∉ text ∧ Valid text then some (.messagePacket clientid text) else none := by
  by_cases h0 : (0 : Byte) ∈ text
  · have hstarter : (0 : Byte) ∉ ascii "0" ++ [separator] := by decide
    rw [if_neg fun h => h.1 h0, chatPacket, List.append_assoc, List.append_assoc,
      cstr_append hstarter, cstr_append_of_nul_mem h0, List.append_assoc, List.singleton_append]
    exact Rust.parsePacket_cut htext
  · rw [cstr_of_nul_not_mem h0] at htext
    rw [cstr_chatPacket h0 hid, Rust.parsePacket_message htext]
    simp only [h0, valid_of_isAscii hid.isAscii, not_false_eq_true, true_and, and_true]

lemma decodes_chat {text clientid : Bytes} (htext : separator ∉ cstr text)
    (hid : ValidAlias clientid) :
    Decodes (cstr (chatPacket text clientid)) ↔ (0 : Byte) ∉ text ∧ Valid text := by
  rw [Decodes, parsePacket_chat htext hid]
  by_cases h : (0 : Byte) ∉ text ∧ Valid text
  · rw [if_pos h, cstr_chatPacket h.1 hid, takeWhile_append_separator (by decide)]
    exact iff_of_true ⟨_, rfl, rfl⟩ h
  · rw [if_neg h]
    refine iff_of_false ?_ h
    rintro ⟨packet, hpacket, -⟩
    cases hpacket

/-- The text of a direct message is UTF-8 as far as it is read exactly if the command is. -/
lemma valid_directText {text x sender : Bytes} {args : List Bytes}
    (hargs : Lexer.lex text (List.replicate Executor.slots []) space = .ok args)
    (hcmd : args.getD 0 [] = ascii "msg") (hx : args.getD 1 [] = x) (hvalid : ValidAlias x)
    (hsender : ValidAlias sender) :
    Valid (cstr (directText x sender args)) ↔ Valid (cstr text) := by
  obtain ⟨rest, htext, hdirect⟩ := directText_of_lex hargs hcmd hx hvalid.ne_nil sender
  have hblank : IsAscii [space] := by decide
  have hblanks : IsAscii (List.replicate (511 - text.count space) space) := by
    intro c hc
    rw [List.eq_of_mem_replicate hc]
    decide
  have hmsg : IsAscii (ascii "msg" ++ [space] ++ (x ++ [space])) :=
    IsAscii.append (by decide) (hvalid.isAscii.append hblank)
  have hmsg0 : (0 : Byte) ∉ ascii "msg" ++ [space] ++ (x ++ [space]) := by
    simp [hvalid.nul_not_mem, ascii, space]
  have hhead : IsAscii (ascii "[" ++ x ++ ascii " -> " ++ sender ++ ascii "]: ") :=
    ((((IsAscii.append (by decide) hvalid.isAscii).append (by decide)).append
      hsender.isAscii).append (by decide))
  have hhead0 : (0 : Byte) ∉ ascii "[" ++ x ++ ascii " -> " ++ sender ++ ascii "]: " := by
    simp [hvalid.nul_not_mem, hsender.nul_not_mem, ascii]
  rw [← valid_cstr_append (s := text) hblank, htext, valid_cstr_append_left hmsg hmsg0, hdirect,
    valid_cstr_append_left hhead hhead0, valid_cstr_append hblanks]

lemma decodes_direct (str : Bytes) :
    Decodes (cstr (ascii "6" ++ [separator] ++ str)) ↔ Valid (cstr str) :=
  decodes_cstr_field (by simp) str

/-! ### Polls whose packets are not read -/

namespace Config

variable (c : Config) (w : World) (r : Row)

/-- Another client hears what is broadcast about the row `r`. -/
def Listened : Prop :=
  ∃ k r', c.row? k = some r' ∧ r'.status = .done ∧ w.peer r'.sock ≠ w.peer r.sock

/-- The requests after which an `Undone` client is disconnected. -/
def Refuses : Request → Prop
  | .leave | .garbledLogin | .wrongPassword => True
  | .login u | .register u _ => ¬ (u ∉ c.server.clientidArray ∧ ValidAlias u)
  | _ => False

/-- The requests that cause a packet which the Rust client does not read. -/
inductive Garbles : Request → Prop where
  | unnamed {req : Request} (hid : r.clientid = sentinel) (hrefuses : c.Refuses req)
      (hlistened : c.Listened w r) : Garbles req
  | chat {text : Bytes} (hblank : isBlank (cstr text) = false)
      (hbad : ¬ ((0 : Byte) ∉ text ∧ Valid text)) (hlistened : c.Listened w r) :
      Garbles (.chat text)
  | console (hlistened : c.Listened w r) : Garbles .console
  | unknown {text : Bytes} {args : List Bytes} (hargs : Lexer.lex text
        (List.replicate Executor.slots []) space = .ok args)
      (hcmd : args.getD 0 [] ∉ commandNames) (hbad : ¬ Valid (cstr text)) : Garbles (.command text)
  | direct {text : Bytes} {args : List Bytes} {k : ℕ} {target : Row} (hargs : Lexer.lex text
        (List.replicate Executor.slots []) space = .ok args) (hcmd : args.getD 0 [] = ascii "msg")
      (htarget : c.row? k = some target) (hid : target.clientid = args.getD 1 [])
      (hother : target.clientid ≠ r.clientid) (hdone : target.status = .done)
      (hbad : ¬ Valid (cstr text)) : Garbles (.command text)

end Config

/-- The event causes a packet which the Rust client does not read. -/
def Event.Garbles (L : Library) (c : Config) : Event → Prop
  | .accept _ _ => False
  | .receive i w => ∃ r req, c.row? i = some r ∧ c.request w r L = .ok req ∧ c.Garbles w r req

/-- Every packet that the step encrypts for a `Done` client is read by the Rust client. -/
def Decodable (st : Step Config Event Obs) : Prop :=
  ∀ p d, .sent p (.sealed d) ∈ st.obs.acts →
    (∃ k r, st.pre.row? k = some r ∧ r.sock = p ∧ r.status = .done) → Decodes d

/-! ### Rooms -/

lemma Room.config_listened :
    R.config.Listened w r ↔
      ∃ r' ∈ R.rows, r'.status = .done ∧ w.peer r'.sock ≠ w.peer r.sock :=
  Room.exists_config_row?

lemma Room.listened_of_hears {p : Sock} (h : Hears w R.rows (w.peer r.sock) p) :
    R.config.Listened w r := by
  obtain ⟨r', hmem, -, hdone, hpeer⟩ := h.exists
  exact Room.config_listened.mpr ⟨r', hmem, hdone, hpeer⟩

lemma Room.hears_of_listened (h : R.config.Listened w r) :
    ∃ p, Hears w R.rows (w.peer r.sock) p ∧ R.DoneOn p := by
  obtain ⟨r', hmem, hdone, hpeer⟩ := Room.config_listened.mp h
  exact ⟨r'.sock, hears_of_mem hmem hdone hpeer, r', hmem, rfl, hdone⟩

/-- A broadcast that the client does not read reaches nobody. -/
lemma Room.not_listened_of_decodes (hserve : R.serve L w i r = .ok q)
    (h : ∀ p d, .sent p (.sealed d) ∈ q.acts → R.DoneOn p → Decodes d) {data : Bytes}
    (hbroadcast : .broadcast data ∈ q.acts) (hbad : ¬ Decodes data) :
    ¬ R.config.Listened w r := by
  intro hlistened
  obtain ⟨p, hhears, hp⟩ := Room.hears_of_listened hlistened
  exact hbad (h p data ((Room.serve_relays hserve).heard data hbroadcast p hhears) hp)

/-! ### Clients without an alias -/

/-- An `Undone` client that is turned away is announced as having left. -/
lemma Room.announcement_of_refuses (h : R.config.Refuses req) :
    R.config.announcement L r req = some (.left r.clientid) := by
  cases req with
  | leave | garbledLogin | wrongPassword => rfl
  | login u | register u p =>
    have hu : ¬ R.config.Admits u := h
    rw [Config.announcement, if_neg hu]
  | idle | spam | key n | unreadable | illegal | chat text | rename u | console | command text =>
    exact h.elim

/-- An `Undone` client leaves only by being turned away. -/
lemma Room.refuses_of_announcement (hfits : req.Fits .undone)
    (h : R.config.announcement L r req = some (.left r.clientid)) : R.config.Refuses req := by
  cases req with
  | leave | garbledLogin | wrongPassword => trivial
  | login u | register u p =>
    rw [Config.announcement] at h
    split_ifs at h with hu
    · cases h
    · exact hu
  | idle => cases h
  | spam | key n => cases hfits
  | unreadable | illegal | chat text | rename u | console | command text =>
    exact absurd rfl hfits.1

/-! ### What polls encrypt -/

lemma decodes_helpReply (args : List Bytes) :
    Decodes (cstr (ascii "6" ++ [separator] ++ helpReply args)) := by
  rw [decodes_direct, helpReply]
  split_ifs <;> decide

/-- The reply to an unknown command is UTF-8 as far as it is read exactly if the command is. -/
lemma decodes_unknown (text : Bytes) :
    Decodes (cstr (ascii "6" ++ [separator] ++
      (ascii "Command " ++ text ++ ascii " was not found. Type /help to get help."))) ↔
      Valid (cstr text) := by
  have htail : IsAscii (ascii " was not found. Type /help to get help.") := by decide
  have hhead : IsAscii (ascii "Command ") := by decide
  rw [decodes_direct, valid_cstr_append htail, valid_cstr_append_left hhead (by decide)]

/-- What is sent to a `Done` client is read if the poll garbles nothing. -/
lemma Room.decodes_of_not_garbles (hN : R.Named) (hr : R.rows[i]? = some r)
    (hreq : R.request L w r = .ok req) (hserve : R.serve L w i r = .ok q)
    (hg : ¬ R.config.Garbles w r req) {p : Sock} {d : Bytes}
    (hact : .sent p (.sealed d) ∈ q.acts) (hp : R.DoneOn p) : Decodes d := by
  have hnamed := hN.named r (List.mem_of_getElem? hr)
  have hfits := Room.request_fits hreq
  cases Room.serve_encrypts hN hr hreq hserve hact with
  | @roster req p x hx hhears =>
    have hids : Aliases (announced i R.clientids (some x)) := hx ▸ hN.aliases_announced
    rw [decodes_rosterPacket (hN.validAlias_who hr hx) hids]
    intro hs
    -- only a client that leaves can be without an alias
    cases x with
    | joined a => exact not_validAlias_sentinel (hs ▸ (Room.announcement_eq_joined.mp hx).2.2)
    | left a =>
      cases Room.announcement_eq_left hx
      have hundone := hnamed.undone_iff.mpr hs
      rw [hundone] at hfits
      exact hg (.unnamed hs (Room.refuses_of_announcement hfits hx) (Room.listened_of_hears hhears))
  | welcome hu => exact decodes_welcome hu.2
  | chat hblank hhears =>
    apply (decodes_chat (Room.request_chat hreq) (hnamed.valid hfits.1)).mpr
    by_contra hbad
    exact hg (.chat hblank hbad (Room.listened_of_hears hhears))
  | console hhears => exact absurd (.console (Room.listened_of_hears hhears)) hg
  | told htell =>
    cases htell with
    | unreadable | blank | plugins | self => exact (decodes_direct _).mpr (by decide)
    | help args => exact decodes_helpReply args
    | unknown hargs hcmd =>
      rw [decodes_unknown]
      by_contra hbad
      exact hg (.unknown hargs hcmd hbad)
    | direct hargs hcmd hmem hname hs hother =>
      rw [decodes_direct, valid_directText hargs hcmd hname.symm (hN.validAlias hmem hs)
        (hnamed.valid hfits.1)]
      by_contra hbad
      obtain ⟨k, hk⟩ := List.mem_iff_getElem?.mp hmem
      refine hg (.direct hargs hcmd ((Room.config_row? _ k).trans hk) hname hother ?_ hbad)
      exact (Room.doneOn_self hk).mp hp

/-! ### Polls that garble a packet -/

/-- A poll after which every `Done` client can read what it was sent garbles nothing. -/
lemma Room.not_garbles_of_decodes (hN : R.Named) (hr : R.rows[i]? = some r)
    (hreq : R.request L w r = .ok req) (hserve : R.serve L w i r = .ok q)
    (h : ∀ p d, .sent p (.sealed d) ∈ q.acts → R.DoneOn p → Decodes d) :
    ¬ R.config.Garbles w r req := by
  have hrow := List.mem_of_getElem? hr
  have hnamed := hN.named r hrow
  have hfits := Room.request_fits hreq
  intro hg
  cases hg with
  | unnamed hid hrefuses hlistened =>
    obtain ⟨p, hhears, hp⟩ := Room.hears_of_listened hlistened
    have hx := Room.announcement_of_refuses (L := L) (r := r) hrefuses
    have hids : Aliases (announced i R.clientids (some (.left r.clientid))) :=
      hx ▸ hN.aliases_announced
    have hdec := h p _ (Room.sent_rosterPacket hN hr hreq hserve hx hhears) hp
    exact (decodes_rosterPacket (hN.validAlias_who hr hx) hids).mp hdec hid
  | chat hblank hbad hlistened =>
    have hacts := Room.acts_of_chat hN hr hreq hblank hserve
    rw [← decodes_chat (Room.request_chat hreq) (hnamed.valid hfits.1)] at hbad
    exact Room.not_listened_of_decodes hserve h (hacts ▸ List.mem_cons_self) hbad hlistened
  | console hlistened =>
    have hresp := hserve
    rw [Room.serve, hreq, ok_bind, Room.respond] at hresp
    have hacts := Room.acts_of_relayed hresp
    exact Room.not_listened_of_decodes hserve h (hacts ▸ List.mem_cons_self) not_decodes_nil
      hlistened
  | unknown hargs hcmd hbad =>
    have hdone := hnamed.eq_done hfits.1 hfits.2
    have hacts := Room.acts_of_unknown hargs hcmd (Room.acts_of_command hreq hserve)
    refine hbad ((decodes_unknown _).mp (h r.sock _ ?_ ((Room.doneOn_self hr).mpr hdone)))
    rw [hacts, Row.polled_sock]
    exact List.mem_singleton_self _
  | @direct text args k target hargs hcmd htarget hid hother hdone hbad =>
    rw [Room.config_row?] at htarget
    have hmem := List.mem_of_getElem? htarget
    have hundone : target.status ≠ .undone := fun hs => by cases hs.symm.trans hdone
    have htvalid := (hN.named target hmem).valid hundone
    have hact := Room.sent_of_msg hN hreq hserve hargs hcmd hmem hid hundone hother
    have hdec := h _ _ hact ⟨target, hmem, rfl, hdone⟩
    rw [decodes_direct, valid_directText hargs hcmd hid.symm htvalid (hnamed.valid hfits.1)] at hdec
    exact hbad hdec

/-- What a step encrypts for `Done` clients is read exactly when its event garbles nothing. -/
lemma Room.Step.decodes_iff {R' : Room} {e : Event} {o : Obs} (hN : R.Named)
    (h : Room.Step L R e o R') :
    (∀ p d, .sent p (.sealed d) ∈ o.acts → R.DoneOn p → Decodes d) ↔ ¬ e.Garbles L R.config := by
  cases h with
  | accepted hp hstatus =>
    refine iff_of_true (fun p d hact => ?_) not_false
    cases List.mem_singleton.mp hact
  | declined hp hstatus =>
    refine iff_of_true (fun p d hact => ?_) not_false
    cases hact
  | @served i w r q hr hserve =>
    obtain ⟨req, hreq, -⟩ := Room.serve_outcome hserve
    have hgarbles : (Event.receive i w).Garbles L R.config ↔ R.config.Garbles w r req :=
      Room.exists_config_request hr hreq
    rw [hgarbles]
    constructor
    · exact Room.not_garbles_of_decodes hN hr hreq hserve
    · intro hg p d hact hp
      exact Room.decodes_of_not_garbles hN hr hreq hserve hg hact hp

/-- In every run the Rust client reads all that a step encrypts for `Done` clients exactly when
the step's event garbles nothing. -/
theorem decodable_iff_not_garbles (L : Library) (userdata : Bytes)
    {steps : List (Step Config Event Obs)} {c : Config}
    (h : (server L).Run (Config.init userdata) steps c) :
    ∀ st ∈ steps, Decodable st ↔ ¬ st.event.Garbles L st.pre := by
  obtain ⟨rsteps, R, hrun, rfl, rfl⟩ := run_lift h
  intro st hst
  obtain ⟨rst, hrst, rfl⟩ := List.mem_map.mp hst
  obtain ⟨hreach, hstep⟩ := hrun.of_mem hrst
  refine Iff.trans ?_ (Room.Step.decodes_iff (Room.named_of_reachable hreach) hstep)
  simp only [Decodable, Step.map, Room.exists_config_row?, Room.DoneOn]

/-- Alice and Bob are in the room, and a third client leaves before it has an alias. -/
def Toy.leavingUnnamed : List Event :=
  [joins 1, polls 0 (logsIn (ascii "alice") (ascii "pw")) 5,
    polls 0 modulus 10, joins 2, leaves 1]

theorem decodable_iff_not_garbles_toy :
    ∃ steps c, play toy (Config.init []) Toy.leavingUnnamed = some (steps, c) ∧
      ∀ st ∈ steps, Decodable st ↔ ¬ st.event.Garbles toy st.pre := by
  have hsome : (play toy (Config.init []) Toy.leavingUnnamed).isSome = true := by decide +kernel
  obtain ⟨⟨steps, c⟩, hplay⟩ := Option.isSome_iff_exists.mp hsome
  exact ⟨steps, c, hplay, decodable_iff_not_garbles toy [] (run_of_play hplay)⟩

/-- The leave packet of that client cannot be read. -/
theorem not_decodable_toy :
    ¬ ∀ steps c, (server toy).Run (Config.init []) steps c → ∀ st ∈ steps, Decodable st := by
  have hsome : (play toy (Config.init []) Toy.leavingUnnamed).map
      (fun x => x.1.getLast?.map fun st => (st.obs.acts, st.pre.row? 0)) =
      some (some ([.broadcast [50, 1, 150, 1, 97, 108, 105, 99, 101],
        .sent 1 (.sealed [50, 1, 150, 1, 97, 108, 105, 99, 101]), .disconnected 1 .disconnectLeave],
        some ⟨⟨ascii "alice", false, .done, 0⟩, 0, 1⟩)) := by decide +kernel
  obtain ⟨⟨steps, c⟩, hplay, hlast⟩ := Option.map_eq_some_iff.mp hsome
  obtain ⟨st, hst, heq⟩ := Option.map_eq_some_iff.mp hlast
  obtain ⟨hacts, hrow⟩ := Prod.mk.inj heq
  intro hall
  obtain ⟨packet, hparse, -⟩ := hall steps c (run_of_play hplay) st (List.mem_of_getLast? hst) 1
    [50, 1, 150, 1, 97, 108, 105, 99, 101] (by rw [hacts]; simp) ⟨0, _, hrow, rfl, rfl⟩
  have hnone : Rust.parsePacket [50, 1, 150, 1, 97, 108, 105, 99, 101] = none := by decide +kernel
  cases hnone.symm.trans hparse

end OpenSimp
