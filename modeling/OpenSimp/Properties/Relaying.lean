import OpenSimp.Properties.Chat
import OpenSimp.Properties.Handshakes
import OpenSimp.Room.Casts

/-!
# The server as a hub

Seen through the packets that are encrypted for the clients, the server is a hub whose members are
the `Done` clients: every poll is a turn of the client that is polled. So all packets of a run are
parts of one log, and two clients are sent what others broadcast in the same order.
-/

namespace OpenSimp

open Bytes FaultState System ServerNetwork Hub

variable {R R' : Room} {L : Library} {w : World} {i n m : ℕ} {r : Row} {q : Reply} {e : Event}
  {o : Obs}

namespace Config

variable (c : Config)

/-- The client on the connection `n` is `Done`. -/
def isDone (n : ℕ) : Bool := (c.find n).any (·.status = .done)

def members : Set ℕ := {n | c.isDone n = true}

/-- The connection that an event is about. -/
def author : Event → ℕ
  | .accept _ _ => c.accepted
  | .receive i _ => ((c.row? i).map (·.conn)).getD c.accepted

end Config

/-- No two clients have the same address and port when the event polls. -/
def Event.DistinctPeers (c : Config) : Event → Prop
  | .accept _ _ => True
  | .receive _ w => c.DistinctPeers w

/-- What a step encrypts for the connection `n`. -/
def sealedOn (n : ℕ) (st : Step Config Event Obs) : List Bytes := plaintexts (sentOn n st)

/-- The step of the hub is the step of the server as the clients hear it. Its author whispers to
others only if it broadcasts nothing. -/
structure Shows (st : Step Config Event Obs) (turn : Step (Set ℕ) (Turn ℕ Bytes) (ℕ → List Bytes)) :
    Prop where
  pre : turn.pre = st.pre.members
  post : turn.post = st.post.members
  author : turn.event.author = st.pre.author st.event
  posts : turn.event.casts.filterMap Cast.posted = broadcasts st.obs.acts
  heard : ∀ n, turn.obs n = sealedOn n st
  discreet : broadcasts st.obs.acts = [] ∨ Discreet turn.event.author turn.event.casts

/-! ### Members of rooms -/

lemma Room.isDone_iff : R.config.isDone n = true ↔ ∃ r ∈ R.rows, r.conn = n ∧ r.status = .done := by
  rw [Config.isDone, Option.any_eq_true]
  constructor
  · rintro ⟨r, hfind, hdone⟩
    obtain ⟨hr, hconn⟩ := Room.find_config.mp hfind
    exact ⟨r, hr, hconn, of_decide_eq_true hdone⟩
  · rintro ⟨r, hr, hconn, hdone⟩
    exact ⟨r, Room.find_config.mpr ⟨hr, hconn⟩, decide_eq_true hdone⟩

lemma Room.members_seats : members R.seats = R.config.members := by
  ext n
  rw [Config.members, Set.mem_ofPred_eq, Room.isDone_iff]
  constructor
  · rintro ⟨x, hx, hconn, hdone⟩
    obtain ⟨r, hr, rfl⟩ := Room.mem_seats.mp hx
    exact ⟨r, hr, hconn, hdone⟩
  · rintro ⟨r, hr, hconn, hdone⟩
    exact ⟨r.seat, Room.seat_mem hr, hconn, hdone⟩

lemma Room.seated (h : R.config.DistinctPeers w) : Seated w R.seats where
  nodup_conn := by
    rw [Room.seats, List.map_map]
    exact R.nodup_conn
  nodup_sock := by
    rw [Room.seats, List.map_map]
    exact R.nodup_sock
  peers := by
    intro x hx y hy hpeer
    obtain ⟨r, hr, rfl⟩ := Room.mem_seats.mp hx
    obtain ⟨r', hr', rfl⟩ := Room.mem_seats.mp hy
    obtain ⟨k, hk⟩ := List.getElem?_of_mem hr
    obtain ⟨k', hk'⟩ := List.getElem?_of_mem hr'
    have heq := h k k' r r' ((Room.config_row? _ k).trans hk) ((Room.config_row? _ k').trans hk')
      hpeer
    subst heq
    rw [Option.some.inj (hk.symm.trans hk')]

lemma Room.author_receive (hr : R.rows[i]? = some r) :
    R.config.author (.receive i w) = r.conn := by
  rw [Config.author, Room.config_row?, hr]
  rfl

/-- Only the client that is polled becomes or stops being `Done`. -/
lemma Room.isDone_serve (hr : R.rows[i]? = some r) (hserve : R.serve L w i r = .ok q)
    (hn : n ≠ r.conn) : q.room.config.isDone n = true ↔ R.config.isDone n = true := by
  rw [Room.isDone_iff, Room.isDone_iff]
  constructor
  · rintro ⟨r', hr', hconn, hdone⟩
    obtain ⟨req, -, hout⟩ := Room.serve_outcome hserve
    rcases hout.changes_or_erases with ⟨f, hc⟩ | hc
    · rcases (hc.mem_rows hr).mp hr' with rfl | ⟨hmem, -⟩
      · exact absurd hconn.symm hn
      · exact ⟨r', hmem, hconn, hdone⟩
    · exact ⟨r', ((hc.mem_rows hr).mp hr').1, hconn, hdone⟩
  · rintro ⟨r', hr', hconn, hdone⟩
    have hne : r' ≠ r := fun heq => hn (heq ▸ hconn.symm)
    exact ⟨r', Room.mem_of_serve hr hserve hr' hne, hconn, hdone⟩

/-- A connection is accepted with a client that is not `Done`. -/
lemma Room.isDone_connect {p : Sock} (now : ℕ) (hp : R.live p = false) (n : ℕ) :
    (R.connect p now hp).config.isDone n = true ↔ R.config.isDone n = true := by
  rw [Room.isDone_iff, Room.isDone_iff]
  constructor
  · rintro ⟨r, hr, hconn, hdone⟩
    rcases List.mem_append.mp hr with hr | hr
    · exact ⟨r, hr, hconn, hdone⟩
    · rw [List.mem_singleton.mp hr] at hdone
      cases hdone
  · rintro ⟨r, hr, hconn, hdone⟩
    exact ⟨r, List.mem_append_left _ hr, hconn, hdone⟩

lemma Room.members_connect {p : Sock} (now : ℕ) (hp : R.live p = false) :
    (R.connect p now hp).config.members = R.config.members :=
  Set.ext (Room.isDone_connect now hp)

/-! ### Steps -/

lemma plaintexts_clear (p p' : Sock) (bytes : Bytes) :
    plaintexts (sentTo p [.sent p' (.clear bytes)]) = [] := by
  by_cases hp : p' = p
  · simp [sentTo, plaintexts, hp]
  · simp [sentTo, plaintexts, hp]

lemma sealedOn_eq_nil {st : Step Config Event Obs}
    (h : ∀ p, plaintexts (sentTo p st.obs.acts) = []) (n : ℕ) : sealedOn n st = [] := by
  rw [sealedOn, sentOn]
  split
  · exact h _
  · rfl

/-- Accepting a connection encrypts nothing. -/
lemma sealedOn_accept {p : Sock} (hacts : o.acts = [.sent p (greeting L)] ∨ o.acts = []) (n : ℕ) :
    sealedOn n ⟨R.config, e, o, R'.config⟩ = [] := by
  apply sealedOn_eq_nil
  intro p'
  rcases hacts with hacts | hacts
  · simp only [hacts]
    exact plaintexts_clear p' p _
  · simp only [hacts]
    rfl

/-- Nothing is said to a connection that is not there. -/
lemma Says.heard_of_not_mem {seats : List Seat} {author : ℕ} {acts : List Act}
    {casts : List (Cast ℕ Bytes)} (h : Says seats author acts casts)
    (hn : ∀ x ∈ seats, x.conn ≠ n) :
    Hub.heard n (Turn.entries ⟨author, casts⟩ (members seats)) = [] := by
  apply heard_eq_nil
  intro x hx
  obtain ⟨-, hmembers, hcast⟩ := mem_entries.mp hx
  obtain ⟨author', members', cast⟩ := x
  cases hmembers
  cases cast with
  | post d =>
    rintro ⟨⟨y, hy, hconn, -⟩, -⟩
    exact hn y hy hconn
  | whisper l d =>
    intro hmem
    obtain ⟨y, hy, hconn⟩ := h.inside l d hcast
    exact hn y hy (hconn.trans (Set.mem_singleton_iff.mp hmem).symm)

/-- What a poll says is what it encrypts for everybody. -/
lemma Room.sealedOn_of_says (hr : R.rows[i]? = some r) (hserve : R.serve L w i r = .ok q)
    {casts : List (Cast ℕ Bytes)} (h : Says R.seats r.conn q.acts casts) (n : ℕ) :
    sealedOn n ⟨R.config, e, ⟨q.acts, q.useAfterFree, false⟩, q.room.config⟩ =
      Hub.heard n (Turn.entries ⟨r.conn, casts⟩ R.config.members) := by
  rw [← Room.members_seats, sealedOn]
  by_cases hn : ∃ r' ∈ R.rows, r'.conn = n
  · obtain ⟨r', hr', rfl⟩ := hn
    rw [sentOn_of_mem hr']
    exact h.heard r'.seat (Room.seat_mem hr')
  · have hnot : ∀ r' ∈ R.rows, r'.conn ≠ n := fun r' hr' hconn => hn ⟨r', hr', hconn⟩
    have hnot' : ∀ r' ∈ q.room.rows, r'.conn ≠ n := by
      intro r' hr' hconn
      obtain ⟨r'', hr'', hconn'⟩ := Room.exists_conn_of_serve hr hserve hr'
      exact hnot r'' hr'' (hconn'.trans hconn)
    rw [sentOn_of_not_mem hnot hnot', h.heard_of_not_mem]
    · rfl
    · intro x hx
      obtain ⟨r', hr', rfl⟩ := Room.mem_seats.mp hx
      exact hnot r' hr'

/-- A step that encrypts and broadcasts nothing and leaves the `Done` clients as they are. -/
lemma shows_silent (st : Step Config Event Obs) (hmembers : st.post.members = st.pre.members)
    (hsealed : ∀ n, sealedOn n st = []) (hbroadcasts : broadcasts st.obs.acts = []) :
    ∃ turn o', (hub ℕ Bytes).step st.pre.members turn o' st.post.members ∧
      Shows st ⟨st.pre.members, turn, o', st.post.members⟩ := by
  refine ⟨⟨st.pre.author st.event, []⟩, fun _ => [],
    ⟨fun n _ => by rw [hmembers], fun _ => rfl⟩, ?_⟩
  exact ⟨rfl, rfl, rfl, hbroadcasts.symm, fun n => (hsealed n).symm, .inl hbroadcasts⟩

/-- Every step of a room is a turn of a hub. -/
theorem Room.Step.shows (h : Room.Step L R e o R') (hpeers : e.DistinctPeers R.config) :
    ∃ turn o', (hub ℕ Bytes).step R.config.members turn o' R'.config.members ∧
      Shows ⟨R.config, e, o, R'.config⟩ ⟨R.config.members, turn, o', R'.config.members⟩ := by
  cases h with
  | @accepted p w hp hstatus =>
    refine shows_silent ⟨R.config, .accept p w,
      ⟨[.sent p (.clear (L.publicKey ++ [0]))], false, false⟩, (R.connect p w.now hp).config⟩
      (Room.members_connect w.now hp) (sealedOn_accept (.inl rfl)) rfl
  | @declined p w hp hstatus =>
    refine shows_silent ⟨R.config, .accept p w, ⟨[], false, false⟩, R.config⟩ rfl
      (sealedOn_accept (L := L) (p := p) (.inr rfl)) rfl
  | @served i w r q hr hserve =>
    obtain ⟨casts, hsays, hdiscreet⟩ := Room.serve_says (Room.seated hpeers) hr hserve
    have hheard := Room.sealedOn_of_says (e := .receive i w) hr hserve hsays
    refine ⟨⟨r.conn, casts⟩, _, ⟨fun n hn => Room.isDone_serve hr hserve hn, fun n => rfl⟩, ?_⟩
    exact ⟨rfl, rfl, (Room.author_receive hr).symm, hsays.posts.symm, fun n => (hheard n).symm,
      hdiscreet⟩

/-! ### Runs -/

/-- In every run in which no two clients have the same address, the server is a hub: what is
encrypted for each connection is what is heard there in a run of the hub that posts what the server
broadcasts. -/
theorem server_refines_hub (L : Library) (userdata : Bytes) {steps : List (Step Config Event Obs)}
    {c : Config} (h : (server L).Run (Config.init userdata) steps c)
    (hpeers : ∀ st ∈ steps, st.event.DistinctPeers st.pre) :
    ∃ turns, (hub ℕ Bytes).Run ∅ turns c.members ∧ List.Forall₂ Shows steps turns ∧
      ∀ n, steps.flatMap (sealedOn n) = Hub.heard n (Hub.log turns) := by
  have hempty : (Config.init userdata).members = ∅ := by
    ext n
    simp [Config.members, Config.isDone, Config.find, Config.init]
  have hsim : ∀ st ∈ steps, (server L).Reachable (Config.init userdata) st.pre →
      (server L).step st.pre st.event st.obs st.post →
      ∃ turn o', (hub ℕ Bytes).step st.pre.members turn o' st.post.members ∧
        Shows st ⟨st.pre.members, turn, o', st.post.members⟩ := by
    intro st hst hreach hstep
    obtain ⟨R, -, hR⟩ := reachable_lift hreach
    obtain ⟨pre, e, o, post⟩ := st
    cases hR
    obtain ⟨R', rfl, hroom⟩ := room_embeds L R e o post hstep
    exact hroom.shows (hpeers _ hst)
  obtain ⟨turns, hrun, hshows⟩ := h.simulate hsim
  rw [hempty] at hrun
  refine ⟨turns, hrun, hshows, fun n => ?_⟩
  rw [← heard_log hrun]
  clear h hpeers hrun hsim
  induction hshows with
  | nil => rfl
  | cons hst _ ih => rw [List.flatMap_cons, List.flatMap_cons, ih, hst.heard]

/-! ### The order of broadcasts -/

/-- In the step another client makes the server broadcast something to the client on the connection
`n`. -/
def overhears (n : ℕ) (st : Step Config Event Obs) : Bool :=
  st.pre.isDone n && (st.pre.author st.event != n) && !(broadcasts st.obs.acts).isEmpty

/-- Who overhears a turn hears the posts of the turn and nothing else. -/
lemma sealedOn_of_overhears {st : Step Config Event Obs} (h : Room.Step L R e o R')
    (hst : st = ⟨R.config, e, o, R'.config⟩) (hpeers : e.DistinctPeers R.config)
    (hn : overhears n st = true) : sealedOn n st = broadcasts st.obs.acts := by
  subst hst
  obtain ⟨turn, o', hstep, hshows⟩ := h.shows hpeers
  simp only [overhears, Bool.and_eq_true, bne_iff_ne, Bool.not_eq_true',
    List.isEmpty_eq_false_iff] at hn
  obtain ⟨⟨hdone, hauthor⟩, hsome⟩ := hn
  have hdiscreet := hshows.discreet.resolve_left hsome
  have hne : n ≠ turn.author := fun heq => hauthor (hshows.author.symm.trans heq.symm)
  rw [← hshows.heard n, ← hshows.posts, ← posts_entries]
  refine (hstep.2 n).trans (heard_eq_posts ?_)
  intro x hx
  obtain ⟨hauthor', hmembers, hcast⟩ := mem_entries.mp hx
  obtain ⟨author, members, cast⟩ := x
  cases hauthor'
  cases hmembers
  cases cast with
  | post d => exact iff_of_true ⟨hdone, hne⟩ ⟨d, rfl⟩
  | whisper l d =>
    refine iff_of_false (fun hmem => hne ?_) (by simp)
    exact (Set.mem_singleton_iff.mp hmem).trans (hdiscreet l d hcast)

/-- In every run in which no two clients have the same address, two clients are sent what the other
clients make the server broadcast while both are `Done` in one order, that of the server, and
nothing twice or never. -/
theorem broadcasts_totally_ordered (L : Library) (userdata : Bytes)
    {steps : List (Step Config Event Obs)} {c : Config}
    (h : (server L).Run (Config.init userdata) steps c)
    (hpeers : ∀ st ∈ steps, st.event.DistinctPeers st.pre) (n m : ℕ) :
    let both := steps.filter fun st => overhears n st && overhears m st
    both.flatMap (sealedOn n) = both.flatMap (sealedOn m) ∧
      both.flatMap (sealedOn n) = both.flatMap fun st => broadcasts st.obs.acts := by
  intro both
  have hfeed : ∀ k, (∀ st ∈ both, overhears k st = true) →
      both.flatMap (sealedOn k) = both.flatMap fun st => broadcasts st.obs.acts := by
    intro k hk
    apply List.flatMap_congr
    intro st hst
    have hmem : st ∈ steps := List.mem_of_mem_filter hst
    obtain ⟨hreach, hstep⟩ := h.of_mem hmem
    obtain ⟨R, -, hR⟩ := reachable_lift hreach
    rw [hR] at hstep
    obtain ⟨R', hR', hroom⟩ := room_embeds L R _ _ _ hstep
    have heq : st = ⟨R.config, st.event, st.obs, R'.config⟩ := by rw [← hR, ← hR']
    have hpeer := hpeers st hmem
    rw [hR] at hpeer
    exact sealedOn_of_overhears hroom heq hpeer (hk st hst)
  have hboth : ∀ st ∈ both, overhears n st = true ∧ overhears m st = true := by
    intro st hst
    simpa using (List.mem_filter.mp hst).2
  have hn := hfeed n fun st hst => (hboth st hst).1
  have hm := hfeed m fun st hst => (hboth st hst).2
  exact ⟨hn.trans hm.symm, hn⟩

/-! ### Three clients -/

/-- Alice and Bob hear Carol log in and chat. -/
def Toy.carolChats : List Event :=
  twoClients ++ [joins 3, polls 2 (logsIn (ascii "carol") (ascii "pw")) 25, polls 2 modulus 30,
    polls 2 (seals (ascii "0hi")) 1000]

/-- The addresses of toy clients are different. -/
lemma Toy.distinctPeers_of_run {steps : List (Step Config Event Obs)} {c : Config}
    (h : (server L).Run (Config.init []) steps c)
    (hes : ∀ st ∈ steps, ∀ i w, st.event = .receive i w → w.peer = fun p => ⟨p, 0⟩) :
    ∀ st ∈ steps, st.event.DistinctPeers st.pre := by
  intro st hst
  obtain ⟨R, -, hR⟩ := reachable_lift (h.of_mem hst).1
  cases hevent : st.event with
  | accept p w => exact trivial
  | receive i w =>
    rw [hR]
    intro k k' r r' hr hr' hpeer
    rw [hes st hst i w hevent] at hpeer
    rw [Room.config_row?] at hr hr'
    have hsock : r.sock = r'.sock := congrArg Endpoint.address hpeer
    exact List.index_eq_of_map_nodup R.nodup_sock hr hr' hsock

lemma Toy.distinctPeers_of_play {es : List Event} {steps : List (Step Config Event Obs)}
    {c : Config} (h : play toy (Config.init []) es = some (steps, c))
    (hes : ∀ i w, .receive i w ∈ es → w.peer = fun p => ⟨p, 0⟩) :
    ∀ st ∈ steps, st.event.DistinctPeers st.pre := by
  refine Toy.distinctPeers_of_run (run_of_play h) fun st hst i w hevent => hes i w ?_
  rw [← hevent, ← map_event_of_play h]
  exact List.mem_map_of_mem hst

lemma Toy.peers_carolChats (i : ℕ) (w : World) (h : .receive i w ∈ carolChats) :
    w.peer = fun p => ⟨p, 0⟩ := by
  simp only [carolChats, twoClients, joins, polls, List.cons_append, List.nil_append,
    List.mem_cons, reduceCtorEq, Event.receive.injEq, List.not_mem_nil, or_false, false_or] at h
  rcases h with ⟨-, rfl⟩ | ⟨-, rfl⟩ | ⟨-, rfl⟩ | ⟨-, rfl⟩ | ⟨-, rfl⟩ | ⟨-, rfl⟩ | ⟨-, rfl⟩ <;> rfl

theorem server_refines_hub_toy :
    ∃ steps c turns, play toy (Config.init []) Toy.carolChats = some (steps, c) ∧
      (hub ℕ Bytes).Run ∅ turns c.members ∧ List.Forall₂ Shows steps turns ∧
      (chatPacket (ascii "hi") (ascii "carol")) ∈ Hub.heard 0 (Hub.log turns) := by
  have hsome : (play toy (Config.init []) Toy.carolChats).map (fun x => x.1.flatMap (sealedOn 0)) =
      some [joinMessage (ascii "bob") [ascii "alice", ascii "bob"],
        ascii "6" ++ [separator] ++ ascii "Everybody welcome the new user bob",
        joinMessage (ascii "carol") [ascii "alice", ascii "bob", ascii "carol"],
        ascii "6" ++ [separator] ++ ascii "Everybody welcome the new user carol",
        chatPacket (ascii "hi") (ascii "carol")] := by
    decide +kernel
  obtain ⟨⟨steps, c⟩, hplay, hheard⟩ := Option.map_eq_some_iff.mp hsome
  obtain ⟨turns, hrun, hshows, hlog⟩ := server_refines_hub toy [] (run_of_play hplay)
    (Toy.distinctPeers_of_play hplay Toy.peers_carolChats)
  refine ⟨steps, c, turns, hplay, hrun, hshows, ?_⟩
  rw [← hlog 0, hheard]
  simp

theorem broadcasts_totally_ordered_toy :
    ∃ steps c, play toy (Config.init []) Toy.carolChats = some (steps, c) ∧
      let both := steps.filter fun st => overhears 0 st && overhears 1 st
      both.flatMap (sealedOn 0) = both.flatMap (sealedOn 1) ∧
        both.flatMap (sealedOn 0) = both.flatMap fun st => broadcasts st.obs.acts := by
  have hsome : (play toy (Config.init []) Toy.carolChats).isSome = true := by decide +kernel
  obtain ⟨⟨steps, c⟩, hplay⟩ := Option.isSome_iff_exists.mp hsome
  exact ⟨steps, c, hplay, broadcasts_totally_ordered toy [] (run_of_play hplay)
    (Toy.distinctPeers_of_play hplay Toy.peers_carolChats) 0 1⟩

end OpenSimp
