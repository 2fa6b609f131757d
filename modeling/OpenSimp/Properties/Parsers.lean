import OpenSimp.Properties.Memory
import OpenSimp.Properties.Presence
import OpenSimp.Properties.Separators

/-!
# The two clients' parsers

The C++ client splits a packet at every separator, the Rust client stops after as many as the tag
asks for. They read the same of a chat packet and of a direct reply, but of a join or leave packet
the Rust client takes the whole roster for the alias. `Config.Diverges` lists the polls after which
a `Done` client reads something else with the one parser than with the other.
-/

namespace OpenSimp

open Bytes FaultState System ServerNetwork Utf8

variable {R : Room} {L : Library} {w : World} {i : ℕ} {r : Row} {req : Request} {q : Reply}
  {d : Bytes}

/-! ### Reports -/

/-- The kind of a packet with the fields that it is shown with. -/
inductive Report where
  | chat (sender text : Bytes)
  | joined (who : Bytes)
  | left (who : Bytes)
  | command (text : Bytes)
  | direct (text : Bytes)
  deriving DecidableEq

def Rust.Packet.report : Rust.Packet → Report
  | .messagePacket username message => .chat username message
  | .joinPacket line => .joined line
  | .disconnectPacket line => .left line
  | .commandReplyPacket reply => .command reply
  | .serverDmPacket text => .direct text

def Cpp.Shown.report : Cpp.Shown → Report
  | .message sender text => .chat sender text
  | .joined who _ => .joined who
  | .left who _ => .left who
  | .command text => .command text
  | .direct text => .direct text

/-- Both clients read the packet, and report the same. -/
def Agree (d : Bytes) : Prop :=
  ∃ packet shown, Rust.parsePacket d = some packet ∧ Cpp.shown d = .ok (some shown) ∧
    packet.report = shown.report

/-- What the C++ client reports goes by the first three fields. -/
def reportOf (fields : List Bytes) : Option Report :=
  (Cpp.dispatch fields).map Cpp.Shown.report

lemma reportOf_append_replicate (fields : List Bytes) (n : ℕ) :
    reportOf (fields ++ List.replicate n []) = reportOf fields := by
  simp only [reportOf, Cpp.dispatch, Cpp.getD_append_replicate_nil]
  split_ifs <;> rfl

/-- The clients agree if there is room for the fields and these are reported alike. -/
lemma agree_iff : Agree d ↔ (d.splitOn separator).length ≤ Cpp.words ∧
    ∃ packet, Rust.parsePacket d = some packet ∧
      reportOf (d.splitOn separator) = some packet.report := by
  rw [Agree, Cpp.shown, Cpp.lexer_eq]
  split_ifs with hroom
  · simp only [ok_bind]
    rw [← reportOf_append_replicate _ (Cpp.words - (d.splitOn separator).length), reportOf]
    constructor
    · rintro ⟨packet, shown, hparse, hshown, hreport⟩
      have hshown := Except.ok.inj hshown
      exact ⟨hroom, packet, hparse, by rw [hshown, hreport]; rfl⟩
    · rintro ⟨-, packet, hparse, hreport⟩
      obtain ⟨shown, hshown, hreport⟩ := Option.map_eq_some_iff.mp hreport
      exact ⟨packet, shown, hparse, by rw [hshown]; rfl, hreport.symm⟩
  · refine iff_of_false ?_ fun h => hroom h.1
    rintro ⟨packet, shown, -, h, -⟩
    cases h

/-! ### Packets of each kind -/

lemma getD_zero_splitOn (d : Bytes) :
    (d.splitOn separator).getD 0 [] = d.takeWhile (· ≠ separator) := by
  by_cases hsep : separator ∈ d
  · obtain ⟨xs, ys, rfl, hxs⟩ := List.eq_append_cons_of_mem hsep
    rw [List.splitOn_append_cons_self_of_not_mem hxs, takeWhile_append_separator hxs,
      List.getD_cons_zero]
  · rw [List.splitOn_eq_singleton hsep, List.getD_cons_zero, eq_comm, List.takeWhile_eq_self_iff]
    intro c hc
    simpa using fun heq : c = separator => hsep (heq ▸ hc)

/-- A packet that both read alike is read by the Rust client as what its tag says. -/
lemma Agree.decodes (h : Agree d) : Decodes d := by
  obtain ⟨-, packet, hparse, hreport⟩ := agree_iff.mp h
  refine ⟨packet, hparse, ?_⟩
  rw [← getD_zero_splitOn]
  rw [reportOf, Cpp.dispatch] at hreport
  split_ifs at hreport with h0 h1 h2 h5 h6
  all_goals
    cases packet <;> cases hreport
  · exact h0.symm
  · exact h1.symm
  · exact h2.symm
  · exact h5.symm
  · exact h6.symm

lemma agree_direct {text : Bytes} (htext : separator ∉ text) :
    Agree (ascii "6" ++ separator :: text) ↔ Valid text := by
  have hstarter : separator ∉ ascii "6" := by decide
  rw [agree_iff, List.splitOn_append_cons_self_of_not_mem hstarter,
    List.splitOn_eq_singleton htext, Rust.parsePacket_field (by simp)]
  split_ifs with hvalid
  · refine iff_of_true ⟨show 2 ≤ 100 by omega, .serverDmPacket text, rfl, rfl⟩ hvalid
  · refine iff_of_false ?_ hvalid
    rintro ⟨-, packet, hparse, -⟩
    cases hparse

lemma agree_chat {text sender : Bytes} (htext : separator ∉ text) (hsender : ValidAlias sender) :
    Agree (ascii "0" ++ separator :: (text ++ separator :: sender)) ↔ Valid text := by
  have hstarter : separator ∉ ascii "0" := by decide
  rw [agree_iff, List.splitOn_append_cons_self_of_not_mem hstarter,
    List.splitOn_append_cons_self_of_not_mem htext,
    List.splitOn_eq_singleton hsender.separator_not_mem, Rust.parsePacket_message htext]
  simp only [valid_of_isAscii hsender.isAscii, and_true]
  split_ifs with hvalid
  · exact iff_of_true ⟨show 3 ≤ 100 by omega, .messagePacket sender text, rfl, rfl⟩ hvalid
  · refine iff_of_false ?_ hvalid
    rintro ⟨-, packet, hparse, -⟩
    cases hparse

/-- The Rust client takes the roster for a part of the alias. -/
lemma not_agree_rosterPacket {ids : List Bytes} {x : Announcement Bytes} (hx : Plain x.who)
    (hids : Aliases ids) (hroster : ∃ b ∈ ids, b ≠ sentinel) : ¬ Agree (rosterPacket ids x) := by
  obtain ⟨b, hb, hs⟩ := hroster
  have hne : x.who ≠ x.who ++ rosterText ids := by
    intro heq
    have hnil : rosterText ids = [] := List.append_right_eq_self.mp heq.symm
    rw [rosterText, List.flatMap_eq_nil_iff] at hnil
    cases hnil b (List.mem_filter.mpr ⟨hb, by simpa using hs⟩)
  intro h
  obtain ⟨-, packet, hparse, hreport⟩ := agree_iff.mp h
  rw [splitOn_rosterPacket hx hids] at hreport
  rw [rosterPacket_eq, Rust.parsePacket_field (by cases x <;> simp [rosterTag])] at hparse
  split_ifs at hparse
  cases x with
  | joined a =>
    cases hparse
    have heq : some (Report.joined a) = some (.joined (a ++ rosterText ids)) := hreport
    exact hne (Report.joined.inj (Option.some.inj heq))
  | left a =>
    cases hparse
    have heq : some (Report.left a) = some (.left (a ++ rosterText ids)) := hreport
    exact hne (Report.left.inj (Option.some.inj heq))

/-! ### Polls after which the parsers differ -/

/-- The requests that cause a packet which the two clients read differently: somebody hears of a
joining or leaving client, or the Rust client does not read the packet. -/
inductive Config.Diverges (c : Config) (L : Library) (w : World) (r : Row) : Request → Prop where
  | announced {req : Request} {x : Announcement Bytes} (hx : c.announcement L r req = some x)
      (hlistened : c.Listened w r) : Diverges c L w r req
  | garbled {req : Request} (h : c.Garbles w r req) : Diverges c L w r req

/-- The event causes such a packet. -/
def Event.Diverges (L : Library) (c : Config) : Event → Prop
  | .accept _ _ => False
  | .receive i w => ∃ r req, c.row? i = some r ∧ c.request w r L = .ok req ∧ c.Diverges L w r req

/-- The clients agree on every packet that the step encrypts for `Done` clients. -/
def ClientsAgree (st : Step Config Event Obs) : Prop :=
  ∀ p d, .sent p (.sealed d) ∈ st.obs.acts →
    (∃ k r, st.pre.row? k = some r ∧ r.sock = p ∧ r.status = .done) → Agree d

lemma Room.agree_of_not_diverges (hN : R.Named) (hr : R.rows[i]? = some r)
    (hreq : R.request L w r = .ok req) (hserve : R.serve L w i r = .ok q)
    (hd : ¬ R.config.Diverges L w r req) {p : Sock} (hact : .sent p (.sealed d) ∈ q.acts)
    (hp : R.DoneOn p) : Agree d := by
  have hdec : Decodes d :=
    Room.decodes_of_not_garbles hN hr hreq hserve (fun hg => hd (.garbled hg)) hact hp
  have htold : ∀ {str}, Plain (cstr str) → Decodes (cstr (ascii "6" ++ [separator] ++ str)) →
      Agree (cstr (ascii "6" ++ [separator] ++ str)) := by
    intro str hplain hdec
    rw [decodes_direct] at hdec
    have h0 : (0 : Byte) ∉ ascii "6" ++ [separator] := by decide
    rw [cstr_append h0, List.append_assoc, List.singleton_append]
    exact (agree_direct hplain.1).mpr hdec
  cases Room.serve_encrypts hN hr hreq hserve hact with
  | roster hx hhears => exact absurd (.announced hx (Room.listened_of_hears hhears)) hd
  | told h => exact htold (Room.plain_of_tells hN hr hreq h) hdec
  | welcome hu =>
    refine htold ?_ hdec
    have hwelcome : Plain (ascii "Everybody welcome the new user ") := by decide
    rw [hwelcome.cstr_append_iff, cstr_of_nul_not_mem hu.2.nul_not_mem]
    exact hu.2.plain
  | chat hblank hhears =>
    have hvalid := (hN.named r (List.mem_of_getElem? hr)).valid (Room.request_fits hreq).1
    have htext := Room.request_chat hreq
    obtain ⟨h0, hutf8⟩ := (decodes_chat htext hvalid).mp hdec
    rw [cstr_of_nul_not_mem h0] at htext
    rw [cstr_chatPacket h0 hvalid]
    exact (agree_chat htext hvalid).mpr hutf8
  | console hhears => exact absurd hdec not_decodes_nil

/-- Somebody is on the roster of a packet that another client hears. -/
lemma Room.exists_roster (hN : R.Named) (hr : R.rows[i]? = some r) {x : Announcement Bytes}
    (hx : R.config.announcement L r req = some x) {r' : Row} (hmem : r' ∈ R.rows)
    (hdone : r'.status = .done) (hpeer : w.peer r'.sock ≠ w.peer r.sock) :
    ∃ b ∈ announced i R.clientids (some x), b ≠ sentinel := by
  cases x with
  | joined a =>
    have ha := (Room.announcement_eq_joined.mp hx).2.2
    have hi : i < R.clientids.length := by
      simpa [Room.clientids] using (List.getElem?_eq_some_iff.mp hr).1
    exact ⟨a, List.mem_set hi a, fun hs => not_validAlias_sentinel (hs ▸ ha)⟩
  | left a =>
    have hs : r'.clientid ≠ sentinel := by
      intro hs
      cases hdone.symm.trans ((hN.named r' hmem).undone_iff.mpr hs)
    refine ⟨r'.clientid, (hN.mem_eraseIdx_clientids hr hs).mpr ⟨?_, ?_⟩, hs⟩
    · exact List.mem_map_of_mem hmem
    · intro heq
      have hsame := hN.unique r' hmem r (List.mem_of_getElem? hr) heq hs
      exact hpeer (congrArg (fun r => w.peer r.sock) hsame)

lemma Room.not_diverges_of_agree (hN : R.Named) (hr : R.rows[i]? = some r)
    (hreq : R.request L w r = .ok req) (hserve : R.serve L w i r = .ok q)
    (h : ∀ p d, .sent p (.sealed d) ∈ q.acts → R.DoneOn p → Agree d) :
    ¬ R.config.Diverges L w r req := by
  rintro (@⟨x, hx, hlistened⟩ | hg)
  · obtain ⟨r', hmem, hdone, hpeer⟩ := Room.config_listened.mp hlistened
    have hsent := Room.sent_rosterPacket hN hr hreq hserve hx (hears_of_mem hmem hdone hpeer)
    have hids : Aliases (announced i R.clientids (some x)) := hx ▸ hN.aliases_announced
    refine not_agree_rosterPacket (hN.plain_who hr hx) hids ?_ (h _ _ hsent ⟨r', hmem, rfl, hdone⟩)
    exact Room.exists_roster hN hr hx hmem hdone hpeer
  · refine Room.not_garbles_of_decodes hN hr hreq hserve ?_ hg
    intro p d hact hp
    exact (h p d hact hp).decodes

lemma Room.Step.agree_iff {R' : Room} {e : Event} {o : Obs} (hN : R.Named)
    (h : Room.Step L R e o R') :
    (∀ p d, .sent p (.sealed d) ∈ o.acts → R.DoneOn p → Agree d) ↔ ¬ e.Diverges L R.config := by
  cases h with
  | accepted hp hstatus =>
    refine iff_of_true (fun p d hact => ?_) not_false
    cases List.mem_singleton.mp hact
  | declined hp hstatus =>
    refine iff_of_true (fun p d hact => ?_) not_false
    cases hact
  | @served i w r q hr hserve =>
    obtain ⟨req, hreq, -⟩ := Room.serve_outcome hserve
    have hdiverges : (Event.receive i w).Diverges L R.config ↔ R.config.Diverges L w r req :=
      Room.exists_config_request hr hreq
    rw [hdiverges]
    constructor
    · exact Room.not_diverges_of_agree hN hr hreq hserve
    · intro hd p d hact hp
      exact Room.agree_of_not_diverges hN hr hreq hserve hd hact hp

/-- In every run the two clients agree on all that a step encrypts for `Done` clients exactly when
nobody hears of a joining or leaving client and the Rust client reads every packet. -/
theorem clients_agree_iff (L : Library) (userdata : Bytes)
    {steps : List (Step Config Event Obs)} {c : Config}
    (h : (server L).Run (Config.init userdata) steps c) :
    ∀ st ∈ steps, ClientsAgree st ↔ ¬ st.event.Diverges L st.pre := by
  obtain ⟨rsteps, R, hrun, rfl, rfl⟩ := run_lift h
  intro st hst
  obtain ⟨rst, hrst, rfl⟩ := List.mem_map.mp hst
  obtain ⟨hreach, hstep⟩ := hrun.of_mem hrst
  refine Iff.trans ?_ (Room.Step.agree_iff (Room.named_of_reachable hreach) hstep)
  simp only [ClientsAgree, Step.map, Room.exists_config_row?, Room.DoneOn]

/-- Alice is in the room when Bob logs in. -/
def Toy.bobJoins : List Event :=
  [joins 1, polls 0 (logsIn (ascii "alice") (ascii "pw")) 5, polls 0 modulus 10, joins 2,
    polls 1 (logsIn (ascii "bob") (ascii "pw")) 15]

theorem clients_agree_iff_toy :
    ∃ steps c, play toy (Config.init []) Toy.bobJoins = some (steps, c) ∧
      ∀ st ∈ steps, ClientsAgree st ↔ ¬ st.event.Diverges toy st.pre := by
  have hsome : (play toy (Config.init []) Toy.bobJoins).isSome = true := by decide +kernel
  obtain ⟨⟨steps, c⟩, hplay⟩ := Option.isSome_iff_exists.mp hsome
  exact ⟨steps, c, hplay, clients_agree_iff toy [] (run_of_play hplay)⟩

/-- The packet that tells Alice. -/
def Toy.bobPacket : Bytes :=
  ascii "1" ++ [separator] ++ ascii "bob" ++ [separator] ++ ascii "alice" ++ [separator] ++
    ascii "bob"

/-- Its line is not the alias of one client. -/
theorem not_clients_agree_toy :
    ¬ ∀ steps c, (server toy).Run (Config.init []) steps c → ∀ st ∈ steps, ClientsAgree st := by
  have hsome : (play toy (Config.init []) Toy.bobJoins).map
      (fun x => x.1.getLast?.map fun st => (st.obs.acts.contains (.sent 1 (.sealed Toy.bobPacket)),
        (st.pre.row? 0).map fun r => (r.sock, r.status))) =
      some (some (true, some (1, .done))) := by decide +kernel
  obtain ⟨⟨steps, c⟩, hplay, hlast⟩ := Option.map_eq_some_iff.mp hsome
  obtain ⟨st, hst, heq⟩ := Option.map_eq_some_iff.mp hlast
  obtain ⟨hacts, hrow⟩ := Prod.mk.inj heq
  obtain ⟨r, hr, hrow⟩ := Option.map_eq_some_iff.mp hrow
  obtain ⟨hsock, hdone⟩ := Prod.mk.inj hrow
  intro hall
  obtain ⟨packet, shown, hparse, hshown, hreport⟩ := hall steps c (run_of_play hplay) st
    (List.mem_of_getLast? hst) 1 Toy.bobPacket (by simpa using hacts) ⟨0, r, hr, hsock, hdone⟩
  have hreports : (Rust.parsePacket Toy.bobPacket).map Rust.Packet.report ≠
      (Cpp.shown Toy.bobPacket).toOption.join.map Cpp.Shown.report := by decide +kernel
  rw [hparse, hshown] at hreports
  exact hreports (congrArg some hreport)

end OpenSimp
