import OpenSimp.Properties.Relaying
import OpenSimp.Properties.Rosters

/-!
# What a client knows about the others

A client learns who is there from the join and leave packets. It gets one for every change but those
of its own alias, so that its last one lists the aliases as they are, except that its own may be one
that it had before it was renamed.
-/

namespace OpenSimp

open Bytes FaultState System ServerNetwork

variable {R R' : Room} {L : Library} {w : World} {i k n : ℕ} {r : Row} {req : Request} {q : Reply}
  {e : Event} {o : Obs} {data : Bytes} {a : Bytes}

/-- The join and leave packets among some plaintexts. -/
def rostersIn (plaintexts : List Bytes) : List Bytes :=
  plaintexts.filter fun d => (announcementOf d).isSome

/-- The join and leave packets that some steps encrypt for the connection `n`. -/
def rostersOn (n : ℕ) (steps : List (Step Config Event Obs)) : List Bytes :=
  steps.flatMap fun st => rostersIn (sealedOn n st)

/-- The names that a join or leave packet lists. -/
def namesIn (data : Bytes) : List Bytes := (data.splitOn separator).drop 2

/-- The event reads a request of the client on the connection `n`, whose alias is `a`, to be
renamed. -/
def Event.Renames (L : Library) (n : ℕ) (a : Bytes) (c : Config) : Event → Prop
  | .accept _ _ => False
  | .receive i w => ∃ r b, c.row? i = some r ∧ r.conn = n ∧ r.clientid = a ∧
      c.request w r L = .ok (.rename b)

/-- The packets `view` that the clients have got: the last one of every client lists the aliases of
the room, with an alias of its own that is the present one or one of those it had before, `old`. -/
structure Room.Views (R : Room) (view : ℕ → List Bytes) (old : ℕ → Bytes → Prop) : Prop where
  unaccepted : ∀ n, R.accepted ≤ n → view n = []
  done : ∀ r ∈ R.rows, view r.conn ≠ [] → r.status = .done
  current : ∀ k r data, R.rows[k]? = some r → (view r.conn).getLast? = some data →
    ∃ a, namesIn data = roster (R.clientids.set k a) ∧ (a = r.clientid ∨ old r.conn a)

/-! ### The packets of a poll -/

lemma mem_plaintexts {p : Sock} {acts : List Act} {d : Bytes} :
    d ∈ plaintexts (sentTo p acts) ↔ .sent p (.sealed d) ∈ acts := by
  rw [← mem_sentTo, plaintexts, List.mem_filterMap]
  constructor
  · rintro ⟨packet, hpacket, hd⟩
    cases packet with
    | clear bytes => cases hd
    | sealed d' =>
      cases hd
      exact hpacket
  · exact fun h => ⟨_, h, rfl⟩

/-- The join and leave packets of a poll to the socket `p` are copies of one packet, if there are
any. -/
lemma Room.eq_of_mem_rostersIn (hN : R.Named) (hr : R.rows[i]? = some r)
    (hreq : R.request L w r = .ok req) (hserve : R.serve L w i r = .ok q) {p : Sock}
    (hd : data ∈ rostersIn (plaintexts (sentTo p q.acts))) :
    ∃ x, R.config.announcement L r req = some x ∧ Hears w R.rows (w.peer r.sock) p ∧
      data = rosterPacket q.room.clientids x := by
  obtain ⟨hmem, hsome⟩ := List.mem_filter.mp hd
  have hids := (Room.serve_announced hr hreq hserve).clientids
  cases Room.serve_encrypts hN hr hreq hserve (mem_plaintexts.mp hmem) with
  | roster hx hp =>
    rw [hx] at hids
    exact ⟨_, hx, hp, by rw [hids]⟩
  | welcome | told =>
    rw [isSome_announcementOf (by decide) (by decide)] at hsome
    exact absurd hsome (by decide)
  | @chat text =>
    have hcut : chatPacket text r.clientid =
        ascii "0" ++ [separator] ++ (text ++ [separator] ++ r.clientid) := by simp [chatPacket]
    rw [hcut, isSome_announcementOf (by decide) (by decide)] at hsome
    exact absurd hsome (by decide)
  | console => cases hsome

lemma Room.mem_rostersIn (hN : R.Named) (hr : R.rows[i]? = some r)
    (hreq : R.request L w r = .ok req) (hserve : R.serve L w i r = .ok q)
    {x : Announcement Bytes} (hx : R.config.announcement L r req = some x) {p : Sock}
    (hp : Hears w R.rows (w.peer r.sock) p) :
    rosterPacket q.room.clientids x ∈ rostersIn (plaintexts (sentTo p q.acts)) := by
  have hids := (Room.serve_announced hr hreq hserve).clientids
  rw [hx] at hids
  refine List.mem_filter.mpr ⟨mem_plaintexts.mpr ?_, ?_⟩
  · rw [hids]
    exact Room.sent_rosterPacket hN hr hreq hserve hx hp
  · have hAliases : Aliases q.room.clientids := by
      rw [hids, ← hx]
      exact hN.aliases_announced
    rw [announcementOf_rosterPacket (hN.plain_who hr hx) hAliases]
    rfl

/-- A client that hears nothing of a poll keeps its view. -/
lemma Room.rostersIn_eq_nil (hN : R.Named) (hr : R.rows[i]? = some r)
    (hreq : R.request L w r = .ok req) (hserve : R.serve L w i r = .ok q) {p : Sock}
    (hnot : R.config.announcement L r req = none ∨ ¬ Hears w R.rows (w.peer r.sock) p) :
    rostersIn (plaintexts (sentTo p q.acts)) = [] := by
  rw [List.eq_nil_iff_forall_not_mem]
  intro data hd
  obtain ⟨x, hx, hp, -⟩ := Room.eq_of_mem_rostersIn hN hr hreq hserve hd
  rcases hnot with hnone | hnot
  · rw [hx] at hnone
    cases hnone
  · exact hnot hp

lemma getLast?_append_of_forall_eq {α : Type*} {l l' : List α} {b : α} (hb : b ∈ l')
    (h : ∀ b' ∈ l', b' = b) : (l ++ l').getLast? = some b := by
  have hne : l' ≠ [] := List.ne_nil_of_mem hb
  rw [List.getLast?_append_of_ne_nil _ hne, List.getLast?_eq_some_getLast hne,
    h _ (List.getLast_mem hne)]

/-- The names in the packet of an announcement. -/
lemma Room.namesIn_rosterPacket (hN : R.Named) (hr : R.rows[i]? = some r)
    (hreq : R.request L w r = .ok req) (hserve : R.serve L w i r = .ok q)
    {x : Announcement Bytes} (hx : R.config.announcement L r req = some x) :
    namesIn (rosterPacket q.room.clientids x) = roster q.room.clientids := by
  have hids := (Room.serve_announced hr hreq hserve).clientids
  have hAliases : Aliases q.room.clientids := by
    rw [hids]
    exact hN.aliases_announced
  rw [namesIn, splitOn_rosterPacket (hN.plain_who hr hx) hAliases]
  rfl

/-! ### Steps -/

/-- The join and leave packets of a poll on the connection of a client. -/
lemma Room.rostersIn_sealedOn (hr : r ∈ R.rows) :
    rostersIn (sealedOn r.conn ⟨R.config, e, o, R'.config⟩) =
      rostersIn (plaintexts (sentTo r.sock o.acts)) := by
  rw [sealedOn, sentOn_of_mem hr]

/-- A client that is `Done` stays so while it is there. -/
lemma Room.Outcome.done_of_changes (hfits : req.Fits r.status) (h : R.Outcome L i r req q)
    (hr : R.rows[i]? = some r) {r' : Row} (hr' : r' ∈ q.room.rows) (hconn : r'.conn = r.conn)
    (hdone : r.status = .done) : r'.status = .done := by
  have hother : r' ∈ R.rows ∧ r' ≠ r → r'.status = .done := fun ⟨hmem, hne⟩ =>
    absurd (List.eq_of_map_nodup R.nodup_conn hmem (List.mem_of_getElem? hr) hconn) hne
  have hchanges : ∀ {f : Profile → Profile}, q.Changes R i f → (f r.toProfile).status = .done →
      r'.status = .done := by
    intro f hc hf
    rcases (hc.mem_rows hr).mp hr' with rfl | hmem
    · exact hf
    · exact hother hmem
  have herases : q.Erases R i → r'.status = .done := fun hc => hother ((hc.mem_rows hr).mp hr')
  cases h with
  | quiet hc hf => exact hchanges hc ((hf _).2.trans hdone)
  | renamed hc _ hf => exact hchanges hc ((hf _).2.trans hdone)
  | loggedIn | registered =>
    rw [hdone] at hfits
    cases hfits
  | keyed hc hf => exact hchanges hc (hf _).2
  | refusedKey hc => exact herases hc
  | dropped hc => exact herases hc

namespace Room.Views

variable {view view' : ℕ → List Bytes} {old old' : ℕ → Bytes → Prop}

lemma init (userdata : Bytes) : (Room.init userdata).Views (fun _ => []) fun _ _ => False where
  unaccepted := fun _ _ => rfl
  done := fun _ h => absurd h List.not_mem_nil
  current := fun k r data hr => by simp [Room.init] at hr

lemma congr (h : R.Views view old) (hview : view' = view)
    (hold : ∀ n a, old n a → old' n a) : R.Views view' old' where
  unaccepted := fun n hn => hview ▸ h.unaccepted n hn
  done := fun r hr hne => h.done r hr (hview ▸ hne)
  current := by
    intro k r data hr hlast
    obtain ⟨a, hnames, ha⟩ := h.current k r data hr (hview ▸ hlast)
    exact ⟨a, hnames, ha.imp_right (hold _ a)⟩

/-- A new client is on no list and has got none. -/
lemma connect (h : R.Views view old) {p : Sock} (now : ℕ) (hp : R.live p = false) :
    (R.connect p now hp).Views view old where
  unaccepted := fun n hn => h.unaccepted n (Nat.le_of_succ_le hn)
  done := by
    intro r hr hne
    rcases List.mem_append.mp hr with hr | hr
    · exact h.done r hr hne
    · rw [List.mem_singleton.mp hr] at hne
      exact absurd (h.unaccepted R.accepted le_rfl) hne
  current := by
    intro k r data hr hlast
    have hids : (R.connect p now hp).clientids = R.clientids ++ [sentinel] := by
      simp [Room.clientids, Room.connect, Row.fresh]
    rcases Nat.lt_or_ge k R.rows.length with hk | hk
    · rw [Room.connect, List.getElem?_append_left hk] at hr
      obtain ⟨a, hnames, ha⟩ := h.current k r data hr hlast
      refine ⟨a, ?_, ha⟩
      have hk' : k < R.clientids.length := by simpa [Room.clientids] using hk
      rw [hids, List.set_append_left _ _ hk', roster, List.filter_append, hnames, roster]
      simp
    · rw [Room.connect, List.getElem?_append_right hk] at hr
      have hr := List.mem_of_getElem? hr
      rw [List.mem_singleton.mp hr, Row.fresh, h.unaccepted R.accepted le_rfl] at hlast
      cases hlast

section Serve

variable (h : R.Views view old) (hr : R.rows[i]? = some r)
  (hreq : R.request L w r = .ok req) (hserve : R.serve L w i r = .ok q)
include h hr hreq hserve

/-- The client that is polled gets no list, and stays where it is on its last one. A request to be
renamed makes the alias there an old one. -/
lemma serve_self {r' : Row} (hr' : q.room.rows[k]? = some r') (hconn : r'.conn = r.conn)
    (hlast : (view r.conn).getLast? = some data) :
    ∃ a, namesIn data = roster (q.room.clientids.set k a) ∧
      (a = r'.clientid ∨ old r.conn a ∨ (Event.receive i w).Renames L r.conn a R.config) := by
  obtain ⟨b, hnames, hb⟩ := h.current i r data hr hlast
  have hne : view r.conn ≠ [] := by
    intro hnil
    rw [hnil] at hlast
    cases hlast
  have hdone := h.done r (List.mem_of_getElem? hr) hne
  have hann := (Room.serve_announced hr hreq hserve).clientids
  obtain ⟨req', hreq', hout⟩ := Room.serve_outcome hserve
  cases hreq.symm.trans hreq'
  rcases hout.changes_or_erases with ⟨f, hc⟩ | hc
  · have hi : i < R.clientids.length := by
      rw [Room.clientids, List.length_map]
      exact (List.getElem?_eq_some_iff.mp hr).1
    have hki : k = i := by
      have hself : q.room.rows[i]? = some (r.update f) := by
        rw [hc.rows]
        exact Room.getElem?_modify_self hr
      exact List.index_eq_of_map_nodup q.room.nodup_conn hr' hself hconn
    subst hki
    have hid : q.room.clientids[k]? = some r'.clientid := by
      rw [Room.clientids, List.getElem?_map, hr', Option.map_some]
    have hlen : q.room.clientids.length = R.clientids.length := by
      rw [Room.clientids, Room.clientids, List.length_map, List.length_map, hc.rows,
        List.length_modify]
    cases hx : R.config.announcement L r req with
    | none =>
      rw [hx] at hann
      have hsame : r'.clientid = r.clientid := by
        rw [hann, announced, Room.clientids, List.getElem?_map, hr, Option.map_some] at hid
        exact (Option.some.inj hid).symm
      refine ⟨b, by rw [hnames, hann, announced], ?_⟩
      rw [hsame]
      exact hb.imp_right .inl
    | some x =>
      rw [hx] at hann
      cases x with
      | joined c =>
        refine ⟨b, by rw [hnames, hann, announced, List.set_set], .inr ?_⟩
        obtain ⟨halias, -⟩ := Room.announcement_eq_joined.mp hx
        have hfits := Room.request_fits hreq
        rw [hdone] at hfits
        cases req with
        | rename a =>
          rcases hb with hcurrent | hold
          · exact .inr ⟨r, a, (Room.config_row? _ _).trans hr, rfl, hcurrent.symm, hreq⟩
          · exact .inl hold
        | login | register => cases hfits
        | _ => cases halias
      | left c =>
        rw [hann, announced, List.length_eraseIdx_of_lt hi] at hlen
        omega
  · obtain ⟨hmem, hne'⟩ := (hc.mem_rows hr).mp (List.mem_of_getElem? hr')
    exact absurd (List.eq_of_map_nodup R.nodup_conn hmem (List.mem_of_getElem? hr) hconn) hne'

variable (hN : R.Named) (hpeers : R.config.DistinctPeers w)
include hN hpeers

/-- Another client gets the list of every change. -/
lemma serve_other {r' : Row} (hr' : q.room.rows[k]? = some r') (hmem : r' ∈ R.rows) (hne : r' ≠ r)
    (hlast : (view r'.conn ++ rostersIn (plaintexts (sentTo r'.sock q.acts))).getLast? =
      some data) :
    ∃ a, namesIn data = roster (q.room.clientids.set k a) ∧
      (a = r'.clientid ∨ old r'.conn a) := by
  have hann := (Room.serve_announced hr hreq hserve).clientids
  cases hx : R.config.announcement L r req with
  | none =>
    rw [Room.rostersIn_eq_nil hN hr hreq hserve (.inl hx), List.append_nil] at hlast
    rw [hx] at hann
    have hlen : q.room.rows.length = R.rows.length := by
      have := congrArg List.length hann
      simpa [Room.clientids, announced] using this
    obtain ⟨req', -, hout⟩ := Room.serve_outcome hserve
    rcases hout.changes_or_erases with ⟨f, hc⟩ | hc
    · have hki : k ≠ i := by
        rintro rfl
        rw [hc.rows, List.getElem?_modify, hr] at hr'
        simp only [if_true, Option.map_eq_map, Option.map_some, Option.some.injEq] at hr'
        apply hne
        apply List.eq_of_map_nodup R.nodup_conn hmem (List.mem_of_getElem? hr)
        rw [← hr']
        rfl
      have hold : R.rows[k]? = some r' := by
        rwa [hc.rows, List.getElem?_modify_ne _ _ hki.symm] at hr'
      rw [hann, announced]
      exact h.current k r' data hold hlast
    · have hi := (List.getElem?_eq_some_iff.mp hr).1
      rw [hc.rows, List.length_eraseIdx_of_lt hi] at hlen
      omega
  | some x =>
    have hpeer : w.peer r'.sock ≠ w.peer r.sock := by
      intro heq
      obtain ⟨k', hk'⟩ := List.getElem?_of_mem hmem
      have := hpeers k' i r' r ((Room.config_row? _ _).trans hk') ((Room.config_row? _ _).trans hr)
        heq
      subst this
      exact hne (Option.some.inj (hk'.symm.trans hr))
    by_cases hdone : r'.status = .done
    · have hp := hears_of_mem hmem hdone hpeer
      have hall : ∀ d ∈ rostersIn (plaintexts (sentTo r'.sock q.acts)),
          d = rosterPacket q.room.clientids x := by
        intro d hd
        obtain ⟨x', hx', -, rfl⟩ := Room.eq_of_mem_rostersIn hN hr hreq hserve hd
        cases hx.symm.trans hx'
        rfl
      rw [getLast?_append_of_forall_eq (Room.mem_rostersIn hN hr hreq hserve hx hp) hall,
        Option.some.injEq] at hlast
      have hid : q.room.clientids[k]? = some r'.clientid := by
        rw [Room.clientids, List.getElem?_map, hr', Option.map_some]
      refine ⟨r'.clientid, ?_, .inl rfl⟩
      rw [← hlast, Room.namesIn_rosterPacket hN hr hreq hserve hx, List.set_of_getElem? hid]
    · have hnot : ¬ Hears w R.rows (w.peer r.sock) r'.sock := by
        intro hp
        obtain ⟨r'', hr'', hsock, hdone', -⟩ := hp.exists
        exact hdone (List.eq_of_map_nodup R.nodup_sock hr'' hmem hsock ▸ hdone')
      have hnil : view r'.conn = [] := by
        by_contra hview
        exact hdone (h.done r' hmem hview)
      rw [Room.rostersIn_eq_nil hN hr hreq hserve (.inr hnot), hnil] at hlast
      cases hlast

end Serve

/-- A step keeps every view up to date. -/
lemma step (h : R.Views view old) (hN : R.Named) (hstep : Room.Step L R e o R')
    (hpeers : e.DistinctPeers R.config) :
    R'.Views (fun n => view n ++ rostersIn (sealedOn n ⟨R.config, e, o, R'.config⟩))
      fun n a => old n a ∨ e.Renames L n a R.config := by
  cases hstep with
  | @accepted p w hp hstatus =>
    refine (h.connect w.now hp).congr ?_ fun n a => .inl
    funext n
    rw [sealedOn_accept (.inl rfl)]
    exact List.append_nil _
  | @declined p w hp hstatus =>
    refine h.congr ?_ fun n a => .inl
    funext n
    rw [sealedOn_accept (L := L) (p := p) (.inr rfl)]
    exact List.append_nil _
  | @served i w r q hr hserve =>
    obtain ⟨req, hreq, hout⟩ := Room.serve_outcome hserve
    have hmem := List.mem_of_getElem? hr
    have hself : rostersIn (plaintexts (sentTo r.sock q.acts)) = [] :=
      Room.rostersIn_eq_nil hN hr hreq hserve (.inr fun hp => hp.2 rfl)
    have hrows : ∀ r' ∈ q.room.rows, r'.conn = r.conn ∨ r' ∈ R.rows ∧ r' ≠ r := by
      intro r' hr'
      rcases hout.changes_or_erases with ⟨f, hc⟩ | hc
      · rcases (hc.mem_rows hr).mp hr' with rfl | hother
        · exact .inl rfl
        · exact .inr hother
      · exact .inr ((hc.mem_rows hr).mp hr')
    constructor
    · intro n hn
      have hnot : ∀ r' ∈ R.rows, r'.conn ≠ n := by
        intro r' hr' hconn
        have hlt := R.conn_lt r' hr'
        rw [Room.accepted_of_serve hserve] at hn
        omega
      have hnot' : ∀ r' ∈ q.room.rows, r'.conn ≠ n := by
        intro r' hr' hconn
        obtain ⟨r'', hr'', hconn'⟩ := Room.exists_conn_of_serve hr hserve hr'
        exact hnot r'' hr'' (hconn'.trans hconn)
      rw [Room.accepted_of_serve hserve] at hn
      rw [h.unaccepted n hn, sealedOn, sentOn_of_not_mem hnot hnot']
      rfl
    · intro r' hr' hview
      rcases hrows r' hr' with hconn | ⟨hmem', hne⟩
      · rw [hconn, Room.rostersIn_sealedOn hmem, hself, List.append_nil] at hview
        exact hout.done_of_changes (Room.request_fits hreq) hr hr' hconn (h.done r hmem hview)
      · rw [Room.rostersIn_sealedOn hmem'] at hview
        by_cases hold : view r'.conn = []
        · rw [hold, List.nil_append] at hview
          obtain ⟨d, hd⟩ := List.exists_mem_of_ne_nil _ hview
          obtain ⟨-, -, hp, -⟩ := Room.eq_of_mem_rostersIn hN hr hreq hserve hd
          obtain ⟨r'', hr'', hsock, hdone, -⟩ := hp.exists
          exact List.eq_of_map_nodup R.nodup_sock hr'' hmem' hsock ▸ hdone
        · exact h.done r' hmem' hold
    · intro k r' data hr' hlast
      rcases hrows r' (List.mem_of_getElem? hr') with hconn | ⟨hmem', hne⟩
      · rw [hconn, Room.rostersIn_sealedOn hmem, hself, List.append_nil] at hlast
        rw [hconn]
        exact h.serve_self hr hreq hserve hr' hconn hlast
      · rw [Room.rostersIn_sealedOn hmem'] at hlast
        obtain ⟨a, hnames, ha⟩ := h.serve_other hr hreq hserve hN hpeers hr' hmem' hne hlast
        exact ⟨a, hnames, ha.imp_right .inl⟩

end Room.Views

/-! ### Runs -/

/-- In every run in which no two clients have the same address, the last join or leave packet that a
client got lists the aliases of the table as they are now, in the order of the table; only its own
may be another one, and then it is one that the client had when it was renamed. -/
theorem last_roster_current (L : Library) (userdata : Bytes) {steps : List (Step Config Event Obs)}
    {c : Config} (h : (server L).Run (Config.init userdata) steps c)
    (hpeers : ∀ st ∈ steps, st.event.DistinctPeers st.pre) (hr : c.row? k = some r)
    (hlast : (rostersOn r.conn steps).getLast? = some data) :
    ∃ a, namesIn data = roster (c.server.clientidArray.set k a) ∧
      (a = r.clientid ∨ ∃ st ∈ steps, st.event.Renames L r.conn a st.pre) := by
  obtain ⟨rsteps, R, hrun, rfl, rfl⟩ := run_lift h
  have hviews : R.Views (fun n => rostersOn n (rsteps.map (Step.map Room.config)))
      fun n a => ∃ st ∈ rsteps.map (Step.map Room.config), st.event.Renames L n a st.pre := by
    clear h hr hlast
    induction hrun with
    | nil => exact (Room.Views.init userdata).congr rfl fun n a hn => absurd hn not_false
    | @snoc rsteps R R' e o hrun hstep ih =>
      rw [List.map_append, List.map_singleton] at hpeers
      have hold := ih fun st hst => hpeers st (List.mem_append_left _ hst)
      have hlast := hpeers _ (List.mem_append_right _ (List.mem_singleton_self _))
      refine (hold.step (Room.named_of_reachable ⟨_, hrun⟩) hstep hlast).congr ?_ ?_
      · funext n
        rw [List.map_append, rostersOn, List.flatMap_append, List.map_singleton,
          List.flatMap_singleton]
        rfl
      · rintro n a (⟨st, hst, hrenames⟩ | hrenames)
        · rw [List.map_append]
          exact ⟨st, List.mem_append_left _ hst, hrenames⟩
        · rw [List.map_append]
          exact ⟨Step.map Room.config ⟨R, e, o, R'⟩,
            List.mem_append_right _ (List.mem_singleton_self _), hrenames⟩
  rw [Room.config_row?] at hr
  exact hviews.current k r data hr hlast

theorem last_roster_current_toy :
    ∃ steps c r data, play toy (Config.init []) Toy.carolChats = some (steps, c) ∧
      c.row? 0 = some r ∧ (rostersOn r.conn steps).getLast? = some data ∧
      ∃ a, namesIn data = roster (c.server.clientidArray.set 0 a) ∧
        (a = r.clientid ∨ ∃ st ∈ steps, st.event.Renames toy r.conn a st.pre) := by
  have hsome : (play toy (Config.init []) Toy.carolChats).map (fun x =>
      (x.2.row? 0, (rostersOn 0 x.1).getLast?)) =
      some (some ⟨⟨ascii "alice", false, .done, 0⟩, 0, 1⟩,
        some (joinMessage (ascii "carol") [ascii "alice", ascii "bob", ascii "carol"])) := by
    decide +kernel
  obtain ⟨⟨steps, c⟩, hplay, heq⟩ := Option.map_eq_some_iff.mp hsome
  obtain ⟨hrow, hlast⟩ := Prod.mk.inj heq
  exact ⟨steps, c, _, _, hplay, hrow, hlast, last_roster_current toy [] (run_of_play hplay)
    (Toy.distinctPeers_of_play hplay Toy.peers_carolChats) hrow hlast⟩

end OpenSimp
