import Mathlib.Data.Fintype.EquivFin
import OpenSimp.Clients.Cpp
import OpenSimp.Properties.Logins
import OpenSimp.Properties.Presence

/-!
# Rosters

Every join and leave packet lists the aliases of the clients as they are after the change, in the
order of the table and each once. The C++ client has room for a hundred words, so it reads the
packet exactly if at most ninety-eight clients are on the list.
-/

namespace OpenSimp

open Bytes System ServerNetwork

variable {R R' : Room} {L : Library} {w : World} {i : ℕ} {r : Row} {req : Request} {q : Reply}
  {ids : List Bytes} {a : Bytes}

/-- The aliases a roster lists. -/
def roster (ids : List Bytes) : List Bytes := ids.filter (· ≠ sentinel)

/-- `data` is the packet of the announcement `x`, with the joiner on its roster or without the
leaver. -/
structure Config.Lists (c : Config) (x : Announcement Bytes) (data : Bytes) : Prop where
  packet : data = rosterPacket c.server.clientidArray x
  nodup : (roster c.server.clientidArray).Nodup
  joiner : ∀ a, x = .joined a → a ∈ roster c.server.clientidArray
  leaver : ∀ a, x = .left a → a ∉ roster c.server.clientidArray

/-- The words of the C++ client are those of the announcement `x` with the roster `names`. -/
def Cpp.ReadsRoster (x : Announcement Bytes) (names : List Bytes) (data : Bytes) : Prop :=
  lexer data (List.replicate words []) separator =
    .ok (rosterTag x :: x.who :: names ++ List.replicate (words - 2 - names.length) [])

/-- The event makes the server announce `x`. -/
def Event.Announces (L : Library) (c : Config) (x : Announcement Bytes) : Event → Prop
  | .accept _ _ => False
  | .receive i w => ∃ r req, c.row? i = some r ∧ c.request w r L = .ok req ∧
    c.announcement L r req = some x

/-- The step broadcasts the packet of what its event announces, once, and every join and leave
packet of the step is that packet and complete. -/
structure RostersComplete (L : Library) (st : Step Config Event Obs) : Prop where
  sent : ∀ x, st.event.Announces L st.pre x →
    rosterPackets st.obs.acts = [rosterPacket st.post.server.clientidArray x]
  complete : ∀ data ∈ rosterPackets st.obs.acts, ∃ x, st.event.Announces L st.pre x ∧
    announcementOf data = some x ∧ st.post.Lists x data

/-- The C++ client reads all of them. -/
def RostersRead (st : Step Config Event Obs) : Prop :=
  ∀ data ∈ rosterPackets st.obs.acts, ∀ x, announcementOf data = some x →
    Cpp.ReadsRoster x (roster st.post.server.clientidArray) data

/-- The clients other than row `i` that have an alias, and row `i` if it joins, are more than
ninety-eight. -/
def Config.Crowded (c : Config) (i : ℕ) (x : Announcement Bytes) : Prop :=
  98 < (roster (c.server.clientidArray.eraseIdx i)).length + x.joins.toNat

/-- The event announces somebody to or from a crowd. -/
def Event.Overfills (L : Library) (c : Config) : Event → Prop
  | .accept _ _ => False
  | .receive i w => ∃ r req x, c.row? i = some r ∧ c.request w r L = .ok req ∧
    c.announcement L r req = some x ∧ c.Crowded i x

/-! ### Rosters of rooms -/

lemma mem_roster : a ∈ roster ids ↔ a ∈ ids ∧ a ≠ sentinel := by simp [roster]

lemma roster_cons_of_eq (ha : a = sentinel) : roster (a :: ids) = roster ids :=
  List.filter_cons_of_neg (by simpa using ha)

lemma roster_cons_of_ne (ha : a ≠ sentinel) : roster (a :: ids) = a :: roster ids :=
  List.filter_cons_of_pos (by simpa using ha)

lemma Room.Named.nodup_roster (h : R.Named) : (roster R.clientids).Nodup := by
  rw [roster, Room.clientids, List.filter_map, List.Nodup, List.pairwise_map,
    List.pairwise_filter]
  have hrows : R.rows.Nodup := R.nodup_sock.of_map _
  refine List.Pairwise.imp_of_mem ?_ hrows
  intro r r' hr hr' hne hs _ hid
  exact hne (h.unique r hr r' hr' hid (by simpa using hs))

lemma length_roster_set (hi : i < ids.length) (ha : a ≠ sentinel) :
    (roster (ids.set i a)).length = (roster (ids.eraseIdx i)).length + 1 := by
  induction ids generalizing i with
  | nil => simp at hi
  | cons b ids ih =>
    cases i with
    | zero => simp [roster, ha]
    | succ i =>
      have hlt : i < ids.length := by simpa using hi
      rw [List.set_cons_succ, List.eraseIdx_cons_succ]
      by_cases hb : b = sentinel
      · rw [roster_cons_of_eq hb, roster_cons_of_eq hb, ih hlt]
      · rw [roster_cons_of_ne hb, roster_cons_of_ne hb, List.length_cons, List.length_cons, ih hlt]

/-- The roster after an announcement about row `i`. -/
lemma length_roster_announced (hi : i < ids.length) {x : Announcement Bytes}
    (hx : x.joins = true → x.who ≠ sentinel) :
    (roster (announced i ids (some x))).length =
      (roster (ids.eraseIdx i)).length + x.joins.toNat := by
  cases x with
  | joined a => exact length_roster_set hi (hx rfl)
  | left a => rfl

/-- The C++ client reads a packet whose fields fit its array. -/
lemma Cpp.readsRoster_iff {x : Announcement Bytes} (hx : Plain x.who) (hids : Aliases ids) :
    ReadsRoster x (roster ids) (rosterPacket ids x) ↔ (roster ids).length ≤ 98 := by
  have hsplit : (rosterPacket ids x).splitOn separator = rosterTag x :: x.who :: roster ids :=
    splitOn_rosterPacket hx hids
  have hlength : (rosterTag x :: x.who :: roster ids).length = (roster ids).length + 2 := rfl
  have hfree : words - ((roster ids).length + 2) = words - 2 - (roster ids).length := by omega
  rw [ReadsRoster, lexer_eq, hsplit, hlength, hfree]
  by_cases h : (roster ids).length + 2 ≤ words
  · rw [if_pos h]
    exact iff_of_true rfl (Nat.le_of_add_le_add_right h)
  · rw [if_neg h]
    exact iff_of_false nofun fun h' => h (Nat.add_le_add_right h' 2)

/-! ### Steps -/

/-- The packet of a poll is complete, and the C++ client reads it unless there is a crowd. -/
lemma Room.rosters_serve (hN : R.Named) (hN' : q.room.Named) (hr : R.rows[i]? = some r)
    (hreq : R.request L w r = .ok req) (hserve : R.serve L w i r = .ok q) {x : Announcement Bytes}
    (hx : R.config.announcement L r req = some x) :
    q.room.config.Lists x (rosterPacket q.room.clientids x) ∧
      (Cpp.ReadsRoster x (roster q.room.clientids) (rosterPacket q.room.clientids x) ↔
        ¬ R.config.Crowded i x) := by
  have hids := (Room.serve_announced hr hreq hserve).clientids
  have hi : i < R.clientids.length := by
    simpa [Room.clientids] using (List.getElem?_eq_some_iff.mp hr).1
  have hjoined : ∀ a, x = .joined a → a ≠ sentinel := by
    rintro a rfl hs
    exact not_validAlias_sentinel (hs ▸ (Room.announcement_eq_joined.mp hx).2.2)
  rw [hx] at hids
  constructor
  · refine ⟨rfl, hN'.nodup_roster, ?_, ?_⟩
    · rintro a rfl
      refine mem_roster.mpr ⟨?_, hjoined a rfl⟩
      have hmem : a ∈ q.room.clientids := hids.symm ▸ List.mem_set hi a
      exact hmem
    · rintro a rfl hmem
      have hleft : a ∈ q.room.clientids ∧ a ≠ sentinel := mem_roster.mp hmem
      rw [hids] at hleft
      exact ((hN.mem_eraseIdx_clientids hr hleft.2).mp hleft.1).2 (Room.announcement_eq_left hx)
  · rw [Cpp.readsRoster_iff (hN.plain_who hr hx) hN'.aliases, hids,
      length_roster_announced hi, Config.Crowded, Nat.not_lt]
    · rfl
    · cases x with
      | joined a => exact fun _ => hjoined a rfl
      | left a =>
        intro hleft
        cases hleft

lemma Room.Step.rosters {e : Event} {o : Obs} (hN : R.Named) (h : Room.Step L R e o R') :
    RostersComplete L ⟨R.config, e, o, R'.config⟩ ∧
      (RostersRead ⟨R.config, e, o, R'.config⟩ ↔ ¬ e.Overfills L R.config) := by
  have hN' := hN.step h
  cases h with
  | accepted hp hstatus => exact ⟨⟨fun x h => h.elim, nofun⟩, iff_of_true nofun nofun⟩
  | declined hp hstatus => exact ⟨⟨fun x h => h.elim, nofun⟩, iff_of_true nofun nofun⟩
  | @served i w r q hr hserve =>
    obtain ⟨req, hreq, -⟩ := Room.serve_outcome hserve
    have hpackets := Room.rosterPackets_serve hN hr hreq hserve
    have hannounces : ∀ x, (Event.receive i w).Announces L R.config x ↔
        R.config.announcement L r req = some x := by
      intro x
      constructor
      · rintro ⟨r', req', hr', hreq', hx⟩
        rw [Room.config_row?] at hr'
        cases hr.symm.trans hr'
        cases hreq.symm.trans hreq'
        exact hx
      · exact fun hx => ⟨r, req, (Room.config_row? _ i).trans hr, hreq, hx⟩
    have hoverfills : (Event.receive i w).Overfills L R.config ↔
        ∃ x, R.config.announcement L r req = some x ∧ R.config.Crowded i x := by
      constructor
      · rintro ⟨r', req', x, hr', hreq', hx, hcrowded⟩
        exact ⟨x, (hannounces x).mp ⟨r', req', hr', hreq', hx⟩, hcrowded⟩
      · rintro ⟨x, hx⟩
        exact ⟨r, req, x, (Room.config_row? _ i).trans hr, hreq, hx⟩
    rw [hoverfills]
    cases hx : R.config.announcement L r req with
    | none =>
      have hnone : ∀ data, data ∉ rosterPackets q.acts := by
        rw [hpackets, hx]
        exact fun data => List.not_mem_nil
      refine ⟨⟨fun x hann => ?_, fun data hdata => absurd hdata (hnone data)⟩,
        iff_of_true (fun data hdata => absurd hdata (hnone data)) (by simp)⟩
      cases hx.symm.trans ((hannounces x).mp hann)
    | some x =>
      obtain ⟨hlists, hreads⟩ := Room.rosters_serve hN hN' hr hreq hserve hx
      have hparse := announcementOf_rosterPacket (hN.plain_who hr hx) hN'.aliases
      have hone : rosterPackets q.acts = [rosterPacket q.room.clientids x] := by
        rw [hpackets, hx]
        rfl
      have heq : ∀ data ∈ rosterPackets q.acts, data = rosterPacket q.room.clientids x := by
        rw [hone]
        exact fun data => List.mem_singleton.mp
      refine ⟨⟨fun x' hann => ?_, fun data hdata => ?_⟩, ?_⟩
      · cases hx.symm.trans ((hannounces x').mp hann)
        exact hone
      · rw [heq data hdata]
        exact ⟨x, (hannounces x).mpr hx, hparse, hlists⟩
      · rw [RostersRead]
        dsimp only
        rw [hone]
        simp only [List.mem_singleton, forall_eq, hparse, Option.some.injEq, forall_eq',
          exists_eq_left']
        exact hreads

/-- In every run a step broadcasts one join or leave packet if its event announces somebody and none
otherwise, the packet is complete, and the C++ client reads it exactly when nobody is announced to
or from a crowd. -/
theorem rosters_complete_and_read_iff (L : Library) (userdata : Bytes)
    {steps : List (Step Config Event Obs)} {c : Config}
    (h : (server L).Run (Config.init userdata) steps c) :
    ∀ st ∈ steps, RostersComplete L st ∧ (RostersRead st ↔ ¬ st.event.Overfills L st.pre) := by
  obtain ⟨rsteps, R, hrun, rfl, rfl⟩ := run_lift h
  intro st hst
  obtain ⟨rst, hrst, rfl⟩ := List.mem_map.mp hst
  obtain ⟨hreach, hstep⟩ := hrun.of_mem hrst
  exact hstep.rosters (Room.named_of_reachable hreach)

theorem rosters_complete_and_read_iff_toy :
    ∃ steps c, play toy (Config.init []) Toy.bobLeaves = some (steps, c) ∧
      ∀ st ∈ steps,
        RostersComplete toy st ∧ (RostersRead st ↔ ¬ st.event.Overfills toy st.pre) := by
  have hsome : (play toy (Config.init []) Toy.bobLeaves).isSome = true := by decide +kernel
  obtain ⟨⟨steps, c⟩, hplay⟩ := Option.isSome_iff_exists.mp hsome
  exact ⟨steps, c, hplay, rosters_complete_and_read_iff toy [] (run_of_play hplay)⟩

/-! ### A crowd -/

namespace Toy

/-- The `k`-th of a hundred aliases. -/
def name (k : ℕ) : Bytes := [117, UInt8.ofNat (48 + k / 10), UInt8.ofNat (48 + k % 10)]

lemma validAlias_name : ∀ k < 100, ValidAlias (name k) := by decide +kernel

lemma name_injective {j k : ℕ} (hj : j < 100) (hk : k < 100) (h : name j = name k) : j = k := by
  have hdigit : ∀ {a b : ℕ}, a < 10 → b < 10 →
      UInt8.ofNat (48 + a) = UInt8.ofNat (48 + b) → a = b := by
    intro a b ha hb heq
    have hnat := congrArg UInt8.toNat heq
    rw [UInt8.toNat_ofNat', UInt8.toNat_ofNat', Nat.mod_eq_of_lt (by omega),
      Nat.mod_eq_of_lt (by omega)] at hnat
    omega
  simp only [name, List.cons.injEq, and_true, true_and] at h
  have htens := hdigit (by omega) (by omega) h.1
  have hones := hdigit (by omega) (by omega) h.2
  omega

/-- The first `n` aliases are in the room, and nobody else. -/
structure Crowd (n : ℕ) (R : Room) : Prop where
  reachable : (room toy).Reachable (Room.init []) R
  clientids : R.clientids = (List.range n).map name
  written : Written toy R.userdata ((List.range n).map fun k => (name k, [112]))

lemma name_not_mem {n : ℕ} (hn : n < 100) : name n ∉ (List.range n).map name := by
  intro hmem
  obtain ⟨k, hk, heq⟩ := List.mem_map.mp hmem
  have hlt : k < n := List.mem_range.mp hk
  exact hlt.ne (name_injective (by omega) hn heq)

/-- The message with which the next client logs in. -/
def nextWorld (n : ℕ) : World := world .done (logsIn (name n) [112]) 5

lemma nextWorld_open (n : ℕ) : (nextWorld n).status ≠ .disconnected := by
  simp [nextWorld, world]

lemma nextWorld_data (n : ℕ) : (nextWorld n).data ≠ [] := by
  simp [nextWorld, world, logsIn, maxRawData]

/-- The credentials of the next client. -/
def nextLogin (n : ℕ) : Bytes := name n ++ ([separator] ++ [112])

lemma rsaDecrypt_nextWorld (n : ℕ) : toy.rsaDecrypt (nextWorld n).data = some (nextLogin n) := rfl

lemma username_nextLogin {n : ℕ} (hn : n < 100) : username (nextLogin n) = name n :=
  username_append (validAlias_name n hn).separator_not_mem _

lemma password_nextLogin {n : ℕ} (hn : n < 100) : password (nextLogin n) = [112] :=
  password_append (validAlias_name n hn).separator_not_mem (by decide)

/-- The next client connects. -/
lemma Crowd.connects {n : ℕ} {R : Room} (h : Crowd n R) :
    ∃ R₁ r, (room toy).Reachable (Room.init []) R₁ ∧ R₁.rows[n]? = some r ∧ r.status = .undone ∧
      R₁.clientids = (List.range n).map name ++ [sentinel] ∧ R₁.userdata = R.userdata := by
  obtain ⟨p, hp⟩ := Infinite.exists_notMem_finset (R.rows.map Row.sock).toFinset
  have hlive : R.live p = false := by simpa [Room.live] using hp
  have hconnect : (room toy).step R (.accept p (world .done [] 0)) _ (R.connect p 0 hlive) :=
    Room.Step.accepted hlive rfl
  have hlen : R.rows.length = n := by
    simpa [Room.clientids] using congrArg List.length h.clientids
  refine ⟨_, Row.fresh R.accepted p 0, h.reachable.snoc hconnect, ?_, rfl, ?_, rfl⟩
  · simp [Room.connect, ← hlen]
  · simp [Room.clientids, Room.connect, Row.fresh, ← h.clientids]

lemma name_not_mem_clientids {n : ℕ} (hn : n < 100) :
    name n ∉ (List.range n).map name ++ [sentinel] := by
  rw [List.mem_append, List.mem_singleton, not_or]
  exact ⟨name_not_mem hn, fun hs => not_validAlias_sentinel (hs ▸ validAlias_name n hn)⟩

/-- The next client connects and logs in. -/
lemma Crowd.next {n : ℕ} {R : Room} (h : Crowd n R) (hn : n < 100) :
    ∃ R₁ r q, (room toy).Reachable (Room.init []) R₁ ∧ R₁.rows[n]? = some r ∧
      R₁.clientids = (List.range n).map name ++ [sentinel] ∧
      R₁.request toy (nextWorld n) r = .ok (.register (name n) [112]) ∧
      R₁.serve toy (nextWorld n) n r = .ok q ∧ Crowd (n + 1) q.room := by
  obtain ⟨R₁, r, hreach, hr, hundone, hids, huserdata⟩ := h.connects
  have hwritten : Written toy R₁.userdata ((List.range n).map fun k => (name k, [112])) :=
    huserdata ▸ h.written
  have hnew : name n ∉ ((List.range n).map fun k => (name k, ([112] : Bytes))).map Prod.fst := by
    rw [List.map_map]
    exact name_not_mem hn
  have hfree : name n ∉ R₁.clientids := hids ▸ name_not_mem_clientids hn
  have haccepts :
      R₁.config.Accepts ((List.range n).map fun k => (name k, [112])) (nextLogin n) := by
    constructor
    · simp [password_nextLogin hn]
    · exact (username_nextLogin hn).symm ▸ validAlias_name n hn
    · exact (username_nextLogin hn).symm ▸ hfree
    · exact .inl ((username_nextLogin hn).symm ▸ hnew)
  have hreq : R₁.request toy (nextWorld n) r = .ok (.register (name n) [112]) := by
    rw [Room.request_of_undone hundone (nextWorld_open n) (nextWorld_data n),
      requestOfLogin_of_accepts toy_yamlLaws hwritten (rsaDecrypt_nextWorld n) haccepts,
      username_nextLogin hn, password_nextLogin hn, if_neg hnew]
  obtain ⟨q, hserve, -, hregisters⟩ := Room.serve_accepts toy_yamlLaws hwritten hr hundone
    (nextWorld_open n) (nextWorld_data n) (rsaDecrypt_nextWorld n) haccepts
  have hsnoc := hreach.snoc (Room.Step.served hr hserve)
  refine ⟨R₁, r, q, hreach, hr, hids, hreq, hserve, hsnoc, ?_, ?_⟩
  · have hjoined : R₁.config.announcement toy r (.register (name n) [112]) =
        some (.joined (name n)) :=
      Room.announcement_eq_joined.mpr ⟨rfl, hfree, validAlias_name n hn⟩
    rw [(Room.serve_announced hr hreq hserve).clientids, hjoined, announced, hids,
      List.range_succ, List.map_append, List.set_append_right _ _ (by simp)]
    simp
  · have hafter := hregisters.written
    rw [Config.accountsAfter, username_nextLogin hn, password_nextLogin hn, if_neg hnew] at hafter
    rw [List.range_succ, List.map_append]
    exact hafter

lemma exists_crowd {n : ℕ} (hn : n ≤ 100) : ∃ R, Crowd n R := by
  induction n with
  | zero => exact ⟨Room.init [], .refl, rfl, Written.nil⟩
  | succ n ih =>
    obtain ⟨R, hR⟩ := ih (by omega)
    obtain ⟨_, _, q, -, -, -, -, -, hq⟩ := hR.next hn
    exact ⟨q.room, hq⟩

end Toy

/-- The C++ client has no room for the roster when the ninety-ninth client joins. -/
theorem not_rosters_read_toy :
    ¬ ∀ steps c, (server toy).Run (Config.init []) steps c →
      ∀ st ∈ steps, RostersComplete toy st ∧ RostersRead st := by
  obtain ⟨R, hR⟩ := Toy.exists_crowd (n := 98) (by omega)
  obtain ⟨R₁, r, q, ⟨steps, hrun⟩, hr, hids, hreq, hserve, -⟩ := hR.next (by omega)
  have hN : R₁.Named := Room.named_of_reachable hrun.reachable
  have hstep := Room.Step.served hr hserve
  intro hall
  have hread := (hall _ _ (server_run_of_room (hrun.snoc hstep)) _
    (List.mem_map_of_mem (List.mem_append_right _ (List.mem_singleton_self _)))).2
  apply (hstep.rosters hN).2.mp hread
  refine ⟨r, _, .joined (Toy.name 98), (Room.config_row? _ _).trans hr, hreq, ?_, ?_⟩
  · have hfree : Toy.name 98 ∉ R₁.clientids := hids ▸ Toy.name_not_mem_clientids (by omega)
    exact Room.announcement_eq_joined.mpr ⟨rfl, hfree, Toy.validAlias_name 98 (by omega)⟩
  · have hothers : R₁.config.server.clientidArray.eraseIdx 98 = (List.range 98).map Toy.name := by
      have hcolumn : R₁.config.server.clientidArray = (List.range 98).map Toy.name ++ [sentinel] :=
        hids
      rw [hcolumn, List.eraseIdx_append_of_length_le (by simp)]
      simp
    have hnames : ∀ a ∈ (List.range 98).map Toy.name, decide (a ≠ sentinel) = true := by
      intro a ha
      obtain ⟨k, hk, rfl⟩ := List.mem_map.mp ha
      have hlt : k < 98 := List.mem_range.mp hk
      have hvalid := Toy.validAlias_name k (by omega)
      simpa using fun hs : Toy.name k = sentinel => not_validAlias_sentinel (hs ▸ hvalid)
    rw [Config.Crowded, hothers, roster, List.filter_eq_self.mpr hnames]
    simp

end OpenSimp
