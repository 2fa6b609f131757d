import OpenSimp.Properties.Textboxes

/-!
# Rust clients among each other

A `Rust.Network` is the server with a Rust client on each of its connections. Seen from one of the
clients it is a session, in which the others cause events of the server. As long as no `msg` command
addresses a client that is still exchanging keys, there is one log of what the users say: the server
reads it from what they type, and every client shows a part of it, in its order. In the end a client
has shown all that a user has typed who was never there without it and was not disconnected.
-/

namespace OpenSimp.Rust

open Bytes FaultState System ServerNetwork
open scoped List

/-- The server and the clients on its connections. -/
structure Network where
  server : Config
  peers : ℕ → Peer

namespace Network

/-- What happens next: an event of the server, or a client reads, or its user types. -/
inductive Action where
  | server (e : Event)
  | reads (n : ℕ) (iv seed : Bytes)
  | types (n : ℕ) (nonceRnd : Bytes) (message : List Char)

/-- What happens in the session of the client on the connection `n`. -/
def Action.inSession (n : ℕ) : Action → Option Session.Action
  | .server e => some (.server e)
  | .reads m iv seed => if m = n then some (.reads iv seed) else none
  | .types m nonceRnd message => if m = n then some (.types nonceRnd message) else none

def init (userdata : Bytes) : Network := ⟨Config.init userdata, fun _ => .init Client.init⟩

/-- The session of the client on the connection `n`. -/
def session (x : Network) (n : ℕ) : Session := ⟨x.peers n, x.server⟩

/-- The part of a client and the server. -/
def sessionView (n : ℕ) : View Network Action Session Session.Action where
  state x := x.session n
  event := Action.inSession n

/-- The part of the server alone. -/
def serverView : View Network Action Config Event where
  state := Network.server
  event
    | .server e => some e
    | _ => none

end Network

/-- The server with the Rust clients of `count` users, who are numbered in the order in which they
connect. All sessions take the steps of the server together, and those of their client alone. -/
def network (L : Library) (users : ℕ → User) (count : ℕ) : System Network Network.Action Obs where
  step x action o x' := x'.server.accepted ≤ count ∧ ∀ n,
    match action.inSession n with
    | some action => (session L (users n) n).step (x.session n) action o (x'.session n)
    | none => x'.session n = x.session n

namespace Network

/-- The part that the client on the connection `n` has in some steps. -/
def sessionSteps (n : ℕ) (steps : List (Step Network Action Obs)) :
    List (Step Session Session.Action Obs) := (sessionView n).steps steps

/-- The server's part in some steps. -/
def serverSteps (steps : List (Step Network Action Obs)) : List (Step Config Event Obs) :=
  serverView.steps steps

section Sessions

variable {L : Library} {users : ℕ → User} {count : ℕ} {userdata : Bytes} {x : Network}
  {steps : List (Step Network Action Obs)}

/-- What is done in a network is done in the session of each client. -/
lemma session_run (h : (network L users count).Run (init userdata) steps x) (n : ℕ) :
    (Rust.session L (users n) n).Run (Session.init userdata) (sessionSteps n steps)
      (x.session n) := by
  refine h.view (V := sessionView n) ?_ ?_
  · rintro x action o x' action' ⟨-, hstep⟩ haction
    have hsession := hstep n
    rw [show action.inSession n = some action' from haction] at hsession
    exact hsession
  · rintro x action o x' ⟨-, hstep⟩ hnone
    have hsession := hstep n
    rw [show action.inSession n = none from hnone] at hsession
    exact hsession

/-- The server's part is the same in all sessions. -/
lemma serverSteps_sessionSteps (n : ℕ) :
    OpenSimp.serverSteps (sessionSteps n steps) = serverSteps steps := by
  refine View.steps_steps (fun x => rfl) (fun action => ?_) steps
  cases action with
  | server e => rfl
  | reads m iv seed | types m nonceRnd message =>
    show ((if m = n then some _ else none).bind _) = none
    split_ifs <;> rfl

lemma server_run (h : (network L users count).Run (init userdata) steps x) :
    (OpenSimp.server L).Run (Config.init userdata) (serverSteps steps) x.server := by
  have hrun := OpenSimp.server_run (session_run h 0)
  rwa [serverSteps_sessionSteps] at hrun

/-- The server accepts no more connections than there are users. -/
lemma accepted_le (h : (network L users count).Run (init userdata) steps x)
    {st : Step Config Event Obs} (hst : st ∈ serverSteps steps) :
    st.pre.accepted ≤ count := by
  obtain ⟨nst, hnst, e, -, rfl⟩ := View.mem_steps.mp hst
  refine (h.of_mem hnst).1.invariant (fun x => x.server.accepted ≤ count) (Nat.zero_le _) ?_
  intro s e o s' _ hstep
  exact hstep.1

/-- The server polls the client that an event is about, and no other. -/
lemma pollOf_of_ne_author {c : Config} {e : Event} {n : ℕ} (hne : n ≠ c.author e) :
    c.pollOf n e = .nothing := by
  cases e with
  | accept p w => rfl
  | receive i w =>
    rw [Config.author] at hne
    rw [Config.pollOf]
    cases hr : c.row? i with
    | none => rfl
    | some r =>
      rw [hr] at hne
      exact if_neg fun hconn => hne hconn.symm

/-- A `Done` client is that of a user. -/
lemma lt_of_isDone (h : (network L users count).Run (init userdata) steps x)
    {st : Step Config Event Obs} (hst : st ∈ serverSteps steps) {n : ℕ}
    (hdone : st.pre.isDone n = true) : n < count := by
  have hle := accepted_le h hst
  obtain ⟨R, -, hR⟩ := reachable_lift ((server_run h).of_mem hst).1
  rw [hR] at hdone hle
  obtain ⟨r, hr, rfl, -⟩ := Room.isDone_iff.mp hdone
  exact (R.conn_lt r hr).trans_le hle

end Sessions

/-! ### The users -/

/-- The users have clients that can log in, under names without a separator. -/
structure Lawful (L : Library) (users : ℕ → User) (count : ℕ) : Prop where
  ciphers : ∀ n < count, CipherLaws L (users n).hexDecode
  lawful : ∀ n < count, (users n).Lawful L
  separator_not_mem : ∀ n < count, separator ∉ (users n).uname

/-- No `msg` command addresses a client that is still exchanging keys. -/
def Quiet (L : Library) (count : ℕ) (steps : List (Step Network Action Obs)) : Prop :=
  ∀ n < count, ∀ st ∈ serverSteps steps, ¬ st.event.Intrudes L n st.pre

section Names

variable {L : Library} {users : ℕ → User} {count n : ℕ} {userdata : Bytes} {x : Network}
  {steps : List (Step Network Action Obs)}

lemma inStep (hU : Lawful L users count)
    (h : (network L users count).Run (init userdata) steps x)
    (hquiet : Quiet L count steps) (hn : n < count) :
    (x.session n).InStep L (users n) n (sessionSteps n steps) := by
  refine inStep_of_run (hU.ciphers n hn) (hU.lawful n hn) (session_run h n) ?_
  rw [serverSteps_sessionSteps]
  exact hquiet n hn

lemma follows (hU : Lawful L users count)
    (h : (network L users count).Run (init userdata) steps x)
    (hquiet : Quiet L count steps) (hn : n < count) :
    Follows L (users n).uname (users n).passwd (plaintextsOf (users n) (x.peers n).typed)
      (readsOn n (serverSteps steps)) := by
  have hinstep := inStep hU h hquiet hn
  rw [← serverSteps_sessionSteps n]
  exact hinstep.wrote.follows.of_prefix (hinstep.sent ▸ List.prefix_append _ _)

/-- A `Done` client has the name of its user. -/
lemma clientid_of_row (hU : Lawful L users count)
    (h : (network L users count).Run (init userdata) steps x)
    (hquiet : Quiet L count steps) {st : Step Config Event Obs} (hst : st ∈ serverSteps steps)
    {k : ℕ} {r : Row} (hr : st.pre.row? k = some r) (hdone : r.status = .done) :
    r.conn < count ∧ r.clientid = (users r.conn).uname := by
  have hle := accepted_le h hst
  obtain ⟨rsteps, R, hrun, hsteps, -⟩ := run_lift (server_run h)
  rw [hsteps] at hst
  obtain ⟨rst, hrst, rfl⟩ := List.mem_map.mp hst
  have hmem : r ∈ rst.pre.rows := List.mem_of_getElem? ((Room.config_row? _ _).symm.trans hr)
  have hconn : r.conn < count := (rst.pre.conn_lt r hmem).trans_le hle
  have hfollows := follows hU h hquiet hconn
  rw [hsteps] at hfollows
  exact ⟨hconn, Room.clientid_of_mem hrun (hU.separator_not_mem _ hconn) hfollows
    (fun d => typed_of_typing) hrst hmem rfl hdone⟩

end Names

end Network

/-! ### The messages that are shown -/

/-- The line for the plaintext `d` if it is a message of some user. -/
def chatLine (d : Bytes) : Option Bytes :=
  ((parsePacket d).filter fun packet => packet.sender.isSome).map Packet.line

variable {L : Library} {d l : Bytes}

lemma chatLine_eq_some : chatLine d = some l ↔ ∃ uname, lineFrom uname d = some l := by
  rw [chatLine, Option.map_eq_some_iff]
  constructor
  · rintro ⟨packet, hpacket, hl⟩
    obtain ⟨hparse, hsender⟩ := Option.filter_eq_some_iff.mp hpacket
    obtain ⟨uname, huname⟩ := Option.isSome_iff_exists.mp hsender
    refine ⟨uname, Option.map_eq_some_iff.mpr ⟨packet, ?_, hl⟩⟩
    exact Option.filter_eq_some_iff.mpr ⟨hparse, decide_eq_true huname⟩
  · rintro ⟨uname, h⟩
    obtain ⟨packet, hpacket, hl⟩ := Option.map_eq_some_iff.mp h
    obtain ⟨hparse, hsender⟩ := Option.filter_eq_some_iff.mp hpacket
    refine ⟨packet, Option.filter_eq_some_iff.mpr ⟨hparse, ?_⟩, hl⟩
    rw [of_decide_eq_true hsender]
    rfl

lemma lineShown_of_chatLine (h : chatLine d = some l) : lineShown d = some l := by
  obtain ⟨packet, hpacket, rfl⟩ := Option.map_eq_some_iff.mp h
  rw [lineShown, (Option.filter_eq_some_iff.mp hpacket).1]
  rfl

lemma filterMap_chatLine_sublist {ds lines : List Bytes}
    (h : List.Forall₂ (fun d line => lineShown d = some line) ds lines) :
    ds.filterMap chatLine <+ lines := by
  induction h with
  | nil => exact List.Sublist.refl _
  | @cons d line ds lines hline _ ih =>
    cases hl : chatLine d with
    | none =>
      rw [List.filterMap_cons_none hl]
      exact ih.cons line
    | some l =>
      cases (lineShown_of_chatLine hl).symm.trans hline
      rw [List.filterMap_cons_some hl]
      exact ih.cons_cons _

lemma chatLines_eq_nil {m : ℕ} {st : Step Config Event Obs}
    (h : ∀ uname, linesFrom uname m st = []) : (sealedOn m st).filterMap chatLine = [] := by
  refine List.filterMap_eq_nil_iff.mpr fun d hd => ?_
  rw [Option.eq_none_iff_forall_ne_some]
  intro l hl
  obtain ⟨uname, hfrom⟩ := chatLine_eq_some.mp hl
  have hmem : l ∈ linesFrom uname m st := List.mem_filterMap.mpr ⟨d, hd, hfrom⟩
  rw [h uname] at hmem
  cases hmem

/-- The messages that a poll shows were read from the client that was polled. -/
lemma chatLines_serve {R : Room} {w : World} {i m : ℕ} {r : Row} {q : Reply} (hN : R.Named)
    (hr : R.rows[i]? = some r) (hserve : R.serve L w i r = .ok q) {st : Step Config Event Obs}
    (hst : st = ⟨R.config, .receive i w, ⟨q.acts, q.useAfterFree, false⟩, q.room.config⟩) :
    (sealedOn m st).filterMap chatLine = [] ∨ r.status = .done ∧
      (sealedOn m st).filterMap chatLine <+
        (readOn r.conn st).filterMap (lineRead L r.clientid) := by
  have hcases := fun uname => Room.linesFrom_serve_or hN hr hserve hst uname m
  have hname : ∀ d ∈ sealedOn m st, ∀ l uname, lineFrom uname d = some l →
      r.status = .done ∧ r.clientid = uname := by
    intro d hd l uname hl
    have hmem : l ∈ linesFrom uname m st := List.mem_filterMap.mpr ⟨d, hd, hl⟩
    rcases hcases uname with hnone | ⟨hown, -⟩
    · rw [hnone] at hmem
      cases hmem
    · exact hown
  by_cases hnone : (sealedOn m st).filterMap chatLine = []
  · exact .inl hnone
  · obtain ⟨l, hl⟩ := List.exists_mem_of_ne_nil _ hnone
    obtain ⟨d, hd, hl⟩ := List.mem_filterMap.mp hl
    obtain ⟨uname, hfrom⟩ := chatLine_eq_some.mp hl
    refine .inr ⟨(hname d hd l uname hfrom).1, ?_⟩
    have heq : (sealedOn m st).filterMap chatLine = linesFrom r.clientid m st := by
      refine List.filterMap_congr fun d hd => ?_
      cases hl : lineFrom r.clientid d with
      | some l => exact chatLine_eq_some.mpr ⟨_, hl⟩
      | none =>
        rw [Option.eq_none_iff_forall_ne_some]
        intro l hl'
        obtain ⟨uname, hfrom⟩ := chatLine_eq_some.mp hl'
        rw [← (hname d hd l uname hfrom).2, hl] at hfrom
        cases hfrom
    rw [heq]
    rcases hcases r.clientid with hnil | ⟨-, hlines⟩
    · rw [hnil]
      exact List.nil_sublist _
    · exact hlines

/-- What the user has typed goes into what is read from the client. -/
lemma Wrote.lines {L : Library} {user : User} {status : Status} {uwuify : Bool} {sent : List Bytes}
    {typed : List (List Char)} (h : Wrote L user status uwuify sent typed) (uname : Bytes) :
    (sent.drop 2).filterMap (lineRead L uname) =
      (plaintextsOf user typed).filterMap (lineOf uname) := by
  cases h with
  | login | spb | aes => rfl
  | running hlogin hopens | quit hlogin hopens => exact filterMap_of_opens hopens

section Conversations

variable {users : ℕ → User} {count n m : ℕ} {userdata : Bytes} {x : Network}
  {steps : List (Step Network Network.Action Obs)}

namespace Network

variable {L : Library}

/-- What the server has sealed for a client is what the client has read and what is under way. -/
lemma plaintexts_eq (hU : Lawful L users count)
    (h : (network L users count).Run (init userdata) steps x)
    (hquiet : Quiet L count steps) (hm : m < count) :
    plaintexts (x.peers m).received ++ plaintexts (x.peers m).toClient =
      (serverSteps steps).flatMap (sealedOn m) := by
  have hreceived := (inStep hU h hquiet hm).received
  rw [serverSteps_sessionSteps] at hreceived
  have hshown : (x.peers m).received ++ (x.peers m).toClient =
      (serverSteps steps).flatMap (sentOn m) := hreceived
  rw [← plaintexts_append, hshown, plaintexts, List.filterMap_flatMap]
  rfl

/-- What a client is still to show and has shown under a user's name are the messages that the
server read from this user's client. -/
lemma lines_eq (hU : Lawful L users count)
    (h : (network L users count).Run (init userdata) steps x)
    (hquiet : Quiet L count steps)
    (hunique : ∀ m < count, (users m).uname = (users n).uname → m = n) (hm : m < count) :
    (plaintexts (x.peers m).received).filterMap (lineFrom (users n).uname) ++
        (plaintexts (x.peers m).toClient).filterMap (lineFrom (users n).uname) =
      ((serverSteps steps).filter fun st => st.pre.isDone n).flatMap
        (linesFrom (users n).uname m) := by
  rw [← List.filterMap_append, plaintexts_eq hU h hquiet hm, List.filterMap_flatMap,
    List.flatMap_filter_of_eq_nil]
  · rfl
  · intro st hst haway
    refine linesFrom_of_not_isDone (server_run h) hst (fun k r hr hdone hid => ?_) haway m
    obtain ⟨hconn, hown⟩ := clientid_of_row hU h hquiet hst hr hdone
    exact hunique _ hconn (hown.symm.trans hid)

/-- The messages that the server reads in a step, with the connection they are read from. -/
def logged (L : Library) (users : ℕ → User) (st : Step Config Event Obs) : List (ℕ × Bytes) :=
  let n := st.pre.author st.event
  if st.pre.isDone n then
    ((readOn n st).filterMap (lineRead L (users n).uname)).map fun line => (n, line)
  else []

lemma logged_of_not_isDone {st : Step Config Event Obs} (haway : st.pre.isDone n = false) :
    ((logged L users st).filter fun entry => entry.1 = n).map Prod.snd = [] := by
  rw [List.map_eq_nil_iff, List.filter_eq_nil_iff]
  intro entry hentry hn
  have hn : entry.1 = n := of_decide_eq_true hn
  rw [logged] at hentry
  split_ifs at hentry with hdone
  · obtain ⟨line, -, rfl⟩ := List.mem_map.mp hentry
    rw [← hn] at haway
    cases hdone.symm.trans haway
  · cases hentry

lemma logged_of_isDone {st : Step Config Event Obs} (hdone : st.pre.isDone n = true) :
    ((logged L users st).filter fun entry => entry.1 = n).map Prod.snd =
      (readOn n st).filterMap (lineRead L (users n).uname) := by
  by_cases hauthor : n = st.pre.author st.event
  · subst hauthor
    rw [logged, if_pos hdone, List.filter_eq_self.mpr, List.map_map]
    · exact List.map_id _
    · intro entry hentry
      obtain ⟨line, -, rfl⟩ := List.mem_map.mp hentry
      exact decide_eq_true rfl
  · have hread : readOn n st = [] := by
      rw [readOn, pollOf_of_ne_author hauthor]
      rfl
    rw [hread, List.filterMap_nil, List.map_eq_nil_iff, List.filter_eq_nil_iff]
    intro entry hentry hn
    have hn : entry.1 = n := of_decide_eq_true hn
    rw [logged] at hentry
    split_ifs at hentry
    · obtain ⟨line, -, rfl⟩ := List.mem_map.mp hentry
      exact hauthor hn.symm
    · cases hentry

/-- The part that a user has in what the server has read. -/
lemma log_filter (csteps : List (Step Config Event Obs)) (n : ℕ) :
    ((csteps.flatMap (logged L users)).filter fun entry => entry.1 = n).map Prod.snd =
      (packetsOn n csteps).filterMap (lineRead L (users n).uname) := by
  rw [List.filter_flatMap, List.map_flatMap,
    ← List.flatMap_filter_of_eq_nil (p := fun st => st.pre.isDone n)]
  · rw [packetsOn, ← filterMap_flatMap_readOn]
    refine List.flatMap_congr fun st hst => ?_
    exact logged_of_isDone (List.mem_filter.mp hst).2
  · exact fun st _ => logged_of_not_isDone

/-- What a step shows of messages is what is read in it. -/
lemma chatLines_sublist (hU : Lawful L users count)
    (h : (network L users count).Run (init userdata) steps x)
    (hquiet : Quiet L count steps) {st : Step Config Event Obs} (hst : st ∈ serverSteps steps)
    (m : ℕ) : (sealedOn m st).filterMap chatLine <+ (logged L users st).map Prod.snd := by
  have hown := fun k r => clientid_of_row hU h hquiet hst (k := k) (r := r)
  obtain ⟨rsteps, R, hrun, hsteps, -⟩ := run_lift (server_run h)
  rw [hsteps] at hst
  obtain ⟨rst, hrst, rfl⟩ := List.mem_map.mp hst
  obtain ⟨hreach, hstep⟩ := hrun.of_mem hrst
  rcases Room.silent_or_serve hstep with hsilent | ⟨i, w, r, q, hr, hserve, heq⟩
  · rw [chatLines_eq_nil fun uname => (hsilent uname m m).1]
    exact List.nil_sublist _
  · have hN := Room.named_of_reachable hreach
    rcases chatLines_serve (m := m) hN hr hserve heq with hnone | ⟨hdone, hlines⟩
    · rw [hnone]
      exact List.nil_sublist _
    · have hid := (hown i r ((Room.config_row? _ _).trans hr) hdone).2
      have hhere : rst.pre.config.isDone r.conn = true :=
        (Room.isDone_of_mem (List.mem_of_getElem? hr)).mpr hdone
      rw [hid, heq] at hlines
      rw [heq, logged]
      dsimp only
      rw [Room.author_receive hr, if_pos hhere, List.map_map]
      show _ <+ List.map id _
      rw [List.map_id]
      exact hlines

end Network

/-- As long as no `msg` command addresses a client that is still exchanging keys, there is one log
of the messages, in which every user has an initial part of what the user has typed, and of which
every client shows a part, in the order of the log. -/
theorem conversations_agree (L : Library) (hU : Network.Lawful L users count)
    (h : (network L users count).Run (Network.init userdata) steps x)
    (hquiet : Network.Quiet L count steps) :
    ∃ log : List (ℕ × Bytes), (∀ entry ∈ log, entry.1 < count) ∧
      (∀ n < count, (log.filter fun entry => entry.1 = n).map Prod.snd <+:
        (plaintextsOf (users n) (x.peers n).typed).filterMap (lineOf (users n).uname)) ∧
      ∀ m < count, (plaintexts (x.peers m).received).filterMap chatLine <+ log.map Prod.snd ∧
        (plaintexts (x.peers m).received).filterMap chatLine <+ (x.peers m).client.textbox := by
  refine ⟨(Network.serverSteps steps).flatMap (Network.logged L users), ?_, ?_, ?_⟩
  · intro entry hentry
    obtain ⟨st, hst, hentry⟩ := List.mem_flatMap.mp hentry
    rw [Network.logged] at hentry
    split_ifs at hentry with hdone
    · obtain ⟨line, -, rfl⟩ := List.mem_map.mp hentry
      exact Network.lt_of_isDone h hst hdone
    · cases hentry
  · intro n hn
    obtain ⟨rsteps, R, hroom, hsteps, -⟩ := run_lift (Network.server_run h)
    obtain ⟨packets, hopens, hinit⟩ := (Network.follows hU h hquiet hn).packets
    rw [Network.log_filter, ← filterMap_of_opens hopens]
    rw [hsteps] at hinit ⊢
    rw [← (Room.heard_of_run hroom).packets]
    exact hinit.filterMap _
  · intro m hm
    constructor
    · have hread : plaintexts (x.peers m).received <+
          (Network.serverSteps steps).flatMap (sealedOn m) := by
        rw [← Network.plaintexts_eq hU h hquiet hm]
        exact List.sublist_append_left _ _
      refine (hread.filterMap _).trans ?_
      rw [List.filterMap_flatMap, List.map_flatMap]
      exact List.Sublist.flatMap_right _ fun st hst =>
        Network.chatLines_sublist hU h hquiet hst m
    · obtain ⟨lines, hlines, hshown⟩ := (Network.inStep hU h hquiet hm).shows_received
      exact (filterMap_chatLine_sublist hlines).trans hshown

/-- Then a client shows all messages of a user once nothing is under way any more from the user or
to the client, if the user is the only one of the name and has typed no NUL, no two clients have the
same address, and in every step before which the user is `Done`, so is the client, and the user
stays. A user who is disconnected, for a blank message perhaps, may have typed what nobody is
shown. -/
theorem conversations_converge (L : Library) (hU : Network.Lawful L users count)
    (h : (network L users count).Run (Network.init userdata) steps x)
    (hquiet : Network.Quiet L count steps)
    (hpeers : ∀ st ∈ Network.serverSteps steps, st.event.DistinctPeers st.pre)
    (hn : n < count) (hm : m < count) (hne : n ≠ m)
    (hunique : ∀ m < count, (users m).uname = (users n).uname → m = n)
    (hnul : ∀ message ∈ (x.peers n).typed, Char.ofNat 0 ∉ message)
    (hboth : ∀ st ∈ Network.serverSteps steps, st.pre.isDone n = true → together n m st = true)
    (htoServer : (x.peers n).toServer = []) (htoClient : (x.peers m).toClient = []) :
    (plaintexts (x.peers m).received).filterMap (lineFrom (users n).uname) =
      (plaintextsOf (users n) (x.peers n).typed).filterMap (lineOf (users n).uname) := by
  have hinstep := Network.inStep hU h hquiet hn
  have hrun := Network.server_run h
  -- the server has read whatever the user has sent
  have hsent : readsOn n (Network.serverSteps steps) = (x.peers n).sent := by
    have hsent := hinstep.sent
    rw [Network.serverSteps_sessionSteps] at hsent
    rw [← List.append_nil (readsOn n _), ← htoServer]
    exact hsent
  have hlines := Network.lines_eq hU h hquiet hunique hm
  rw [htoClient, show plaintexts [] = [] from rfl, List.filterMap_nil, List.append_nil] at hlines
  rw [hlines]
  calc ((Network.serverSteps steps).filter fun st => st.pre.isDone n).flatMap
        (linesFrom (users n).uname m)
      = ((Network.serverSteps steps).filter fun st => st.pre.isDone n).flatMap
          (fun st => (readOn n st).filterMap (lineRead L (users n).uname)) := by
        refine List.flatMap_congr fun st hst => ?_
        obtain ⟨hmem, hdone⟩ := List.mem_filter.mp hst
        exact (Network.follows hU h hquiet hn).linesFrom_eq hrun hpeers hnul
          (hU.separator_not_mem n hn) hne hmem (hboth st hmem hdone)
    _ = (packetsOn n (Network.serverSteps steps)).filterMap (lineRead L (users n).uname) :=
        filterMap_flatMap_readOn _
    _ = ((x.peers n).sent.drop 2).filterMap (lineRead L (users n).uname) := by
        obtain ⟨rsteps, R, hroom, hsteps, -⟩ := run_lift hrun
        rw [← hsent, hsteps, (Room.heard_of_run hroom).packets]
    _ = (plaintextsOf (users n) (x.peers n).typed).filterMap (lineOf (users n).uname) :=
        hinstep.wrote.lines _

end Conversations

/-! ### Playing a network -/

namespace Network

variable {L : Library} {users : ℕ → User} {count : ℕ} {x x' : Network} {action : Action}

/-- The client on the connection `n` takes a step of its session that is not the server's. -/
def update (x : Network) (n : ℕ) (s : Session) : Network where
  server := x.server
  peers m := if m = n then s.toPeer else x.peers m

lemma session_update_self {n : ℕ} {s : Session} (hs : s.server = x.server) :
    (x.update n s).session n = s := by
  obtain ⟨peer, server⟩ := s
  cases hs
  simp [session, update]

lemma session_update_of_ne {n m : ℕ} {s : Session} (hne : n ≠ m) :
    (x.update n s).session m = x.session m := by
  simp [session, update, Ne.symm hne]

/-- Takes one step of a network, if it is possible. An event of the server takes a message of the
client that it is about. -/
def fire (L : Library) (users : ℕ → User) (count : ℕ) (x : Network) (action : Action) :
    Option (Step Network Action Obs) :=
  match action with
  | .server e => do
    let st ← OpenSimp.fire L x.server e
    let n := x.server.author e
    let toServer ← (x.server.pollOf n e).take ((program L (users n)).quit (x.peers n).client)
      (x.peers n).toServer
    if st.post.accepted ≤ count then
      some ⟨x, action, st.obs,
        { server := st.post
          peers := fun m =>
            { x.peers m with
              toClient := (x.peers m).toClient ++ sentOn m st
              toServer := if m = n then toServer else (x.peers m).toServer } }⟩
    else none
  | .reads n iv seed => do
    let st ← Session.fire L (program L (users n)) n (x.session n) (.reads iv seed)
    if x.server.accepted ≤ count then some ⟨x, action, st.obs, x.update n st.post⟩ else none
  | .types n nonceRnd message => do
    let st ← Session.fire L (program L (users n)) n (x.session n) (.types nonceRnd message)
    if x.server.accepted ≤ count then some ⟨x, action, st.obs, x.update n st.post⟩ else none

def play (L : Library) (users : ℕ → User) (count : ℕ) : Network → List Action →
    Option (List (Step Network Action Obs) × Network) :=
  System.play (fire L users count)

/-- The messages of the client that is polled are taken from what it has sent. -/
lemma takes_of_take {e : Event} {toServer : List Bytes}
    (h : (x.server.pollOf (x.server.author e) e).take
        ((program L (users (x.server.author e))).quit (x.peers (x.server.author e)).client)
        (x.peers (x.server.author e)).toServer = some toServer) (n : ℕ) :
    (x.server.pollOf n e).Takes ((program L (users n)).quit (x.peers n).client)
      (x.peers n).toServer (if n = x.server.author e then toServer else (x.peers n).toServer) := by
  by_cases hn : n = x.server.author e
  · subst hn
    rw [if_pos rfl]
    exact Poll.takes_of_take h
  · rw [if_neg hn, pollOf_of_ne_author hn]
    exact .nothing

/-- What a client does alone is a step of the network. -/
lemma step_update {n : ℕ} {a : Session.Action} {st : Step Session Session.Action Obs}
    (hst : Session.fire L (program L (users n)) n (x.session n) a = some st)
    (haccepted : x.server.accepted ≤ count)
    (haction : ∀ m, action.inSession m = if n = m then some a else none)
    (ha : ∀ e, a ≠ .server e) :
    (network L users count).step x action st.obs (x.update n st.post) := by
  obtain ⟨-, -, hstep⟩ := Session.fire_eq_some hst
  have hserver : st.post.server = x.server := by
    obtain ⟨pre, a', o, s'⟩ := st
    change (Rust.session L (users n) n).step (x.session n) a o s' at hstep
    cases hstep with
    | server => exact absurd rfl (ha _)
    | reads | types => rfl
  refine ⟨haccepted, fun m => ?_⟩
  rw [haction]
  by_cases hm : n = m
  · subst hm
    rw [if_pos rfl, session_update_self hserver]
    exact hstep
  · rw [if_neg hm]
    exact session_update_of_ne hm

lemma fire_eq_some {st : Step Network Action Obs} (h : fire L users count x action = some st) :
    st.pre = x ∧ st.event = action ∧ (network L users count).step x action st.obs st.post := by
  cases action with
  | server e =>
    obtain ⟨st', hst', h⟩ := Option.bind_eq_some_iff.mp h
    obtain ⟨toServer, htake, h⟩ := Option.bind_eq_some_iff.mp h
    split_ifs at h with haccepted
    cases h
    obtain ⟨hpre, hevent, hstep⟩ := OpenSimp.fire_eq_some hst'
    obtain ⟨pre, event, o, c⟩ := st'
    cases hpre
    cases hevent
    exact ⟨rfl, rfl, haccepted, fun n => .server hstep (takes_of_take htake n)⟩
  | reads n iv seed =>
    obtain ⟨st', hst', h⟩ := Option.bind_eq_some_iff.mp h
    split_ifs at h with haccepted
    cases h
    exact ⟨rfl, rfl, step_update hst' haccepted (fun m => rfl) (by simp)⟩
  | types n nonceRnd message =>
    obtain ⟨st', hst', h⟩ := Option.bind_eq_some_iff.mp h
    split_ifs at h with haccepted
    cases h
    exact ⟨rfl, rfl, step_update hst' haccepted (fun m => rfl) (by simp)⟩

/-- Playing a network is a run. -/
lemma run_of_play {actions : List Action} {steps : List (Step Network Action Obs)}
    (h : play L users count x actions = some (steps, x')) :
    (network L users count).Run x steps x' :=
  System.run_of_play (fun _ _ _ hfire => fire_eq_some hfire) h

/-- The events of the server are those that are played. -/
lemma event_of_play {actions : List Action} {steps : List (Step Network Action Obs)}
    (h : play L users count x actions = some (steps, x')) {st : Step Config Event Obs}
    (hst : st ∈ serverSteps steps) {e : Event} (he : st.event = e) : .server e ∈ actions := by
  obtain ⟨⟨pre, action, o, post⟩, hmem, e', hserver, rfl⟩ := View.mem_steps.mp hst
  have hevent := List.mem_map_of_mem (f := fun st => st.event) hmem
  rw [System.map_event_of_play (fun x action st hfire => (fire_eq_some hfire).2.1) h] at hevent
  cases action with
  | server e' =>
    cases hserver
    exact he ▸ hevent
  | reads | types => cases hserver

end Network

end OpenSimp.Rust

namespace OpenSimp

open Bytes FaultState System ServerNetwork
open scoped List

namespace Toy

def erin : Rust.User := { dora with uname := ascii "erin" }

lemma erin_lawful : erin.Lawful anyCase :=
  { dora_lawful with encrypts := exists_rsaEncrypt (by decide +kernel) }

def users : ℕ → Rust.User
  | 0 => dora
  | _ => erin

def readsNext (n : ℕ) : Rust.Network.Action := .reads n (List.replicate 12 0) []

/-- Dora logs in, then Erin, who types a message that Dora's client reads. -/
def erinTypes : List Rust.Network.Action :=
  [.server (joins 1), readsNext 0, .server (polls 0 (logsIn (ascii "dora") (ascii "pw")) 5),
    readsNext 0, .server (polls 0 (modulus ++ [0]) 10), readsNext 0,
    .server (joins 2), readsNext 1, .server (polls 1 (logsIn (ascii "erin") (ascii "pw")) 15),
    readsNext 1, .server (polls 1 (modulus ++ [0]) 20), readsNext 1,
    .types 1 (List.replicate 12 0) "hi".toList, .server (polls 1 (seals (ascii "0hi")) 1000),
    readsNext 0, readsNext 0, readsNext 0]

end Toy

lemma Toy.lawful_users : Rust.Network.Lawful anyCase users 2 where
  ciphers := by
    intro n hn
    obtain rfl | rfl : n = 0 ∨ n = 1 := by omega
    · exact anyCase_cipherLaws
    · exact anyCase_cipherLaws
  lawful := by
    intro n hn
    obtain rfl | rfl : n = 0 ∨ n = 1 := by omega
    · exact dora_lawful
    · exact erin_lawful
  separator_not_mem := by decide

lemma Toy.peers_erinTypes (i : ℕ) (w : World) (h : .server (.receive i w) ∈ erinTypes) :
    w.peer = fun p => ⟨p, 0⟩ := by
  simp only [erinTypes, readsNext, joins, polls, List.mem_cons, reduceCtorEq,
    Rust.Network.Action.server.injEq, Event.receive.injEq, List.not_mem_nil, or_false,
    false_or] at h
  rcases h with ⟨-, rfl⟩ | ⟨-, rfl⟩ | ⟨-, rfl⟩ | ⟨-, rfl⟩ | ⟨-, rfl⟩ <;> rfl

/-- Both users are there when Erin types, and everything is read in the end. -/
lemma Toy.exists_erinTypes :
    ∃ steps x, Rust.Network.play anyCase users 2 (Rust.Network.init []) erinTypes =
        some (steps, x) ∧
      (plaintexts (x.peers 0).received).filterMap Rust.chatLine = [ascii "<erin>: 'hi'\n"] ∧
      (Rust.Network.serverSteps steps).any (handlesCommand anyCase) = false ∧
      (∀ st ∈ Rust.Network.serverSteps steps, st.pre.isDone 1 = true → together 1 0 st = true) ∧
      (x.peers 1).typed = ["hi".toList] ∧ (x.peers 1).toServer = [] ∧
      (x.peers 0).toClient = [] := by
  have hsome : (Rust.Network.play anyCase users 2 (Rust.Network.init []) erinTypes).map
      (fun y => ((plaintexts (y.2.peers 0).received).filterMap Rust.chatLine,
        (Rust.Network.serverSteps y.1).any (handlesCommand anyCase),
        (Rust.Network.serverSteps y.1).all fun st => !st.pre.isDone 1 || together 1 0 st,
        decide ((y.2.peers 1).typed = ["hi".toList] ∧ (y.2.peers 1).toServer = [] ∧
          (y.2.peers 0).toClient.length = 0))) =
      some ([ascii "<erin>: 'hi'\n"], false, true, true) := by decide +kernel
  obtain ⟨⟨steps, x⟩, hplay, heq⟩ := Option.map_eq_some_iff.mp hsome
  simp only [Prod.mk.injEq] at heq
  obtain ⟨hlines, hany, hall, hread⟩ := heq
  obtain ⟨htyped, htoServer, htoClient⟩ := of_decide_eq_true hread
  refine ⟨steps, x, hplay, hlines, hany, fun st hst hdone => ?_, htyped, htoServer,
    List.length_eq_zero_iff.mp htoClient⟩
  have hboth := List.all_eq_true.mp hall st hst
  rw [hdone] at hboth
  exact hboth

/-- Dora's client shows Erin's message, which is in the log. -/
theorem conversations_agree_toy :
    ∃ (steps : _) (x : Rust.Network) (log : List (ℕ × Bytes)),
      Rust.Network.play Toy.anyCase Toy.users 2 (Rust.Network.init []) Toy.erinTypes =
        some (steps, x) ∧
      (plaintexts (x.peers 0).received).filterMap Rust.chatLine = [ascii "<erin>: 'hi'\n"] ∧
      (log.filter fun entry => entry.1 = 1).map Prod.snd <+: [ascii "<erin>: 'hi'\n"] ∧
      (plaintexts (x.peers 0).received).filterMap Rust.chatLine <+ log.map Prod.snd := by
  obtain ⟨steps, x, hplay, hlines, hany, -, htyped, -⟩ := Toy.exists_erinTypes
  obtain ⟨log, -, htypes, hshows⟩ := Rust.conversations_agree Toy.anyCase Toy.lawful_users
    (Rust.Network.run_of_play hplay) fun n _ => Toy.not_intrudes_of_not_handlesCommand hany
  refine ⟨steps, x, log, hplay, hlines, ?_, (hshows 0 (by decide)).1⟩
  have hlog := htypes 1 (by decide)
  rw [htyped] at hlog
  exact hlog.trans (by decide +kernel)

/-- It shows all that Erin has typed. -/
theorem conversations_converge_toy :
    ∃ steps x, Rust.Network.play Toy.anyCase Toy.users 2 (Rust.Network.init []) Toy.erinTypes =
        some (steps, x) ∧
      (plaintexts (x.peers 0).received).filterMap (lineFrom (ascii "erin")) =
        [ascii "<erin>: 'hi'\n"] := by
  obtain ⟨steps, x, hplay, -, hany, hboth, htyped, htoServer, htoClient⟩ := Toy.exists_erinTypes
  have hrun := Rust.Network.run_of_play hplay
  have hpeers := Toy.distinctPeers_of_run (Rust.Network.server_run hrun) fun st hst i w hevent =>
    Toy.peers_erinTypes i w (Rust.Network.event_of_play hplay hst hevent)
  refine ⟨steps, x, hplay, ?_⟩
  have hlines := Rust.conversations_converge (n := 1) (m := 0) Toy.anyCase Toy.lawful_users hrun
    (fun n _ => Toy.not_intrudes_of_not_handlesCommand hany) hpeers (by decide) (by decide)
    (by decide) (by decide) (by rw [htyped]; decide) hboth htoServer htoClient
  rw [htyped] at hlines
  exact hlines.trans (by decide +kernel)

end OpenSimp
