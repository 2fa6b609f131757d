import OpenSimp.Properties.Aliases
import OpenSimp.Properties.Sweeps
import OpenSimp.Room.Spam
import OpenSimp.Server.Clock

/-!
# Rate limiting

The server measures the time between two messages when it reads them, and `manage` reads at most one
message of a client in 100 ms. So no client is ever disconnected for sending too fast, unless
`asMilliseconds` overflows.
-/

namespace OpenSimp

open Bytes FaultState System ServerNetwork

variable {R R' : Room} {L : Library} {w : World} {i : ℕ} {r : Row} {q : Reply}

/-- `asMilliseconds` of an elapsed time is out of range and comes out at 20 or less. -/
def Overflows (elapsed : ℕ) : Prop :=
  2 ^ 31 ≤ elapsed ∧ (elapsed % 2 ^ 32 ≤ 20 ∨ 2 ^ 31 ≤ elapsed % 2 ^ 32)

instance (elapsed : ℕ) : Decidable (Overflows elapsed) := by unfold Overflows; infer_instance

/-- An encrypted chat message. -/
def IsChat (L : Library) (data : Bytes) : Prop :=
  ∃ iv text, Cryptography.decrypt L data serverKey = .ok (iv, 48 :: text)

/-- All times are more than 20 ms apart. -/
def Spaced (times : List ℕ) : Prop := times.Pairwise fun t t' => t + 20 < t'

namespace Clocked

/-- The step is a poll that reads the message `m` from the client of row `r`. -/
structure Reading (st : System.Step Clocked Clocked.Event Obs) (w : World) (r : Row)
    (m : Message) : Prop where
  event : st.event = .poll w
  row : st.pre.manager.config.row? st.pre.manager.iterator = some r
  message : (st.pre.inbox r.conn).head? = some m

/-- A step at which rate limiting holds. -/
structure RateLimited (L : Library) (st : System.Step Clocked Clocked.Event Obs) : Prop where
  /-- A chat message that a `Done` client sent 20 ms or less after the one before is not broadcast,
  and the client is disconnected for spam. -/
  quick : ∀ w r m, Reading st w r m → m.done = true → m.Quick → IsChat L m.data →
    .disconnected st.pre.manager.iterator .disconnectSpam ∈ st.obs.acts ∧
      ∀ data, .broadcast (48 :: data) ∉ st.obs.acts
  /-- Who is disconnected for spam has sent two messages that are not more than 20 ms apart. -/
  spaced : ∀ k r, .disconnected k .disconnectSpam ∈ st.obs.acts →
    st.pre.manager.config.row? k = some r → ¬ Spaced (st.pre.sends r.conn)

/-- A step at which the clocks overflow for the quick clients and for no others. -/
structure OverflowsFit (L : Library) (st : System.Step Clocked Clocked.Event Obs) : Prop where
  quick : ∀ w r m, Reading st w r m → m.done = true → m.Quick → IsChat L m.data →
    Overflows (w.now - r.interval)
  spaced : ∀ w r m, Reading st w r m → r.status = .done → Overflows (w.now - r.interval) →
    ¬ Spaced (st.pre.sends r.conn)

end Clocked

/-! ### Clocks and polls -/

/-- After 100 ms the test for spam is passed, unless the time overflows. -/
lemma asMilliseconds_le_iff {elapsed : ℕ} (h : 100 ≤ elapsed) :
    asMilliseconds elapsed ≤ 20 ↔ Overflows elapsed := by
  show (elapsed : ℤ).bmod 4294967296 ≤ 20 ↔ 2147483648 ≤ elapsed ∧
    (elapsed % 4294967296 ≤ 20 ∨ 2147483648 ≤ elapsed % 4294967296)
  rw [Int.bmod_def]
  split_ifs
  · omega
  · omega

/-- The rows after the polled one were there before, and after it. -/
lemma Room.getElem?_serve {k : ℕ} {r' : Row} (hr : R.rows[i]? = some r)
    (h : R.serve L w i r = .ok q) (hk : i < k) (hr' : q.room.rows[k]? = some r') :
    ∃ k', i < k' ∧ R.rows[k']? = some r' := by
  rcases Room.rows_serve hr h with ⟨-, hrows⟩ | ⟨-, f, hrows⟩
  · rw [hrows, List.getElem?_eraseIdx_of_ge hk.le] at hr'
    exact ⟨k + 1, by omega, hr'⟩
  · rw [hrows, List.getElem?_modify_ne _ _ hk.ne] at hr'
    exact ⟨k, hk, hr'⟩

/-! ### Between two polls -/

/-- What holds of the clocks and of the messages on their way, when the server is the layout of
`R`. -/
structure Clocked.Paced (R : Room) (s : Clocked) : Prop where
  config : s.manager.config = R.config
  restarted : R.RestartedBy (max s.now s.free)
  restarted_done : ∀ r ∈ R.rows, r.status = .done → r.interval ≤ s.free
  /-- The clients that the pass has still to poll have not been polled for 100 ms. -/
  waiting : ∀ k r, s.manager.iterator ≤ k → R.rows[k]? = some r → r.status = .done →
    r.interval + 100 ≤ s.free
  /-- Who was `Done` when it sent a message still is. -/
  senders : ∀ n, ∀ m ∈ s.inbox n, m.done = true →
    n < R.accepted ∧ ∀ r ∈ R.rows, r.conn = n → r.status = .done

lemma AuthStatus.Advances.done {s s' : AuthStatus} (h : s.Advances s') (hs : s = .done) :
    s' = .done := by
  cases h with
  | stays => exact hs
  | loggedIn | gotKey => cases hs

/-- A step of the room keeps senders `Done`. -/
lemma Room.Step.senders {e : Event} {o : Obs} (h : Room.Step L R e o R') {n : ℕ}
    (hn : n < R.accepted ∧ ∀ r ∈ R.rows, r.conn = n → r.status = .done) :
    n < R'.accepted ∧ ∀ r ∈ R'.rows, r.conn = n → r.status = .done := by
  obtain ⟨hlt, hdone⟩ := hn
  cases h with
  | accepted hp hstatus =>
    refine ⟨Nat.lt_succ_of_lt hlt, fun r hr hconn => ?_⟩
    rcases List.mem_append.mp hr with hmem | hmem
    · exact hdone r hmem hconn
    · rw [List.mem_singleton.mp hmem] at hconn
      exact absurd hconn hlt.ne'
  | declined hp hstatus => exact ⟨hlt, hdone⟩
  | served hr hserve =>
    obtain ⟨req, hreq, hout⟩ := Room.serve_outcome hserve
    constructor
    · rcases hout.changes_or_erases with ⟨f, hc⟩ | hc
      · exact hlt.trans_eq hc.accepted.symm
      · exact hlt.trans_eq hc.accepted.symm
    · intro r' hr' hconn
      rcases hout.row_cases hr (Room.request_fits hreq) hr' with hmem | ⟨hconn', hadv⟩
      · exact hdone r' hmem hconn
      · exact hadv.done (hdone _ (List.mem_of_getElem? hr) (hconn'.symm.trans hconn))

namespace Clocked

variable {s : Clocked}

lemma paced_init (userdata : Bytes) : Paced (Room.init userdata) (init userdata) where
  config := (Room.init_config userdata).symm
  restarted := by simp [Room.RestartedBy, Room.init]
  restarted_done := by simp [Room.init]
  waiting := by simp [Room.init]
  senders := by simp [init]

lemma Paced.deliver (h : Paced R s) {k t : ℕ} (hr : s.manager.config.row? k = some r)
    (hnow : s.now ≤ t) {data : Bytes} (hne : data ≠ []) (hlen : data.length ≤ maxRawData) :
    Paced R (s.deliver r.conn (s.message r t hne hlen)) where
  config := h.config
  restarted := h.restarted.mono (max_le_max hnow le_rfl)
  restarted_done := h.restarted_done
  waiting := h.waiting
  senders := by
    intro n m hm hdone
    rw [h.config, Room.config_row?] at hr
    simp only [Clocked.deliver] at hm
    split_ifs at hm with hn
    · rcases List.mem_append.mp hm with hm | hm
      · rw [hn]
        exact h.senders r.conn m hm hdone
      · rw [List.mem_singleton.mp hm] at hdone
        have hmem := List.mem_of_getElem? hr
        refine ⟨hn ▸ R.conn_lt r hmem, fun r' hr' hconn => ?_⟩
        rw [List.eq_of_map_nodup R.nodup_conn hr' hmem (hconn.trans hn)]
        exact of_decide_eq_true hdone
    · exact h.senders n m hm hdone

lemma Paced.accept (h : Paced R s) {p : Sock} {o : Obs} {manager : Manager} (hnow : s.now ≤ w.now)
    (hstep : Manager.Step L s.manager (.accept p w) o manager) :
    ∃ R', Paced R' { s with manager := manager, now := w.now } := by
  have hrestarted := h.restarted.mono (max_le_max hnow (le_refl s.free))
  cases hstep with
  | accept hstep =>
    rw [h.config] at hstep
    obtain ⟨R', rfl, hroom⟩ := room_embeds L R _ _ _ hstep
    have hsenders := fun n m hm hdone => hroom.senders (h.senders n m hm hdone)
    cases hroom with
    | accepted hp hstatus =>
      refine ⟨R.connect p w.now hp, rfl, ?_, ?_, ?_, hsenders⟩
      · intro r hr
        rcases List.mem_append.mp hr with hr | hr
        · exact hrestarted r hr
        · rw [List.mem_singleton.mp hr]
          exact le_max_left _ _
      · intro r hr hdone
        rcases List.mem_append.mp hr with hr | hr
        · exact h.restarted_done r hr hdone
        · rw [List.mem_singleton.mp hr] at hdone
          cases hdone
      · intro k r hk hr hdone
        rcases Nat.lt_or_ge k R.rows.length with hlt | hge
        · rw [Room.connect, List.getElem?_append_left hlt] at hr
          exact h.waiting k r hk hr hdone
        · rw [Room.connect, List.getElem?_append_right hge] at hr
          rw [List.mem_singleton.mp (List.mem_of_getElem? hr)] at hdone
          cases hdone
    | declined => exact ⟨R, rfl, hrestarted, h.restarted_done, h.waiting, hsenders⟩

lemma Paced.poll (h : Paced R s) {o : Obs} {manager : Manager} (hnow : s.now ≤ w.now)
    (hfree : s.free ≤ w.now) (hlater : w.now ≤ w.later)
    (hstep : Manager.Step L s.manager (.poll w) o manager) (n : ℕ) :
    ∃ R', Paced R' (s.polled n w manager) := by
  obtain ⟨r, q, hr, hserve, -, rfl⟩ := hstep.poll_room h.config
  have hrestarted : q.room.RestartedBy w.later := by
    refine Room.RestartedBy.serve (h.restarted.mono ?_) hlater hserve
    exact (max_le hnow hfree).trans hlater
  refine ⟨q.room, rfl, hrestarted.mono (le_max_right _ _), fun r hr _ => hrestarted r hr, ?_, ?_⟩
  · intro k r' hk hr' hdone
    obtain ⟨k', hk', hr''⟩ := Room.getElem?_serve hr hserve hk hr'
    calc r'.interval + 100
      _ ≤ s.free := h.waiting k' r' hk'.le hr'' hdone
      _ ≤ w.later := hfree.trans hlater
  · intro n' m hm hdone
    refine (Room.Step.served hr hserve).senders (h.senders n' m ?_ hdone)
    simp only [Clocked.polled] at hm
    split_ifs at hm with hn
    · exact hn ▸ List.mem_of_mem_tail hm
    · exact hm

lemma Paced.sleep (h : Paced R s) {t : ℕ} {o : Obs} {manager : Manager} (hnow : s.now ≤ t)
    (hfree : s.free + 100 ≤ t) (hstep : Manager.Step L s.manager .sleep o manager) :
    Paced R { s with manager := manager, now := t, free := t } := by
  have hle : s.free ≤ t := (Nat.le_add_right _ _).trans hfree
  cases hstep with
  | sleep =>
    refine ⟨h.config, h.restarted.mono (max_le_max hnow hle), ?_, ?_, h.senders⟩
    · intro r hr hdone
      exact (h.restarted_done r hr hdone).trans hle
    · intro k r _ hr hdone
      calc r.interval + 100
        _ ≤ s.free + 100 :=
          Nat.add_le_add_right (h.restarted_done r (List.mem_of_getElem? hr) hdone) 100
        _ ≤ t := hfree

lemma exists_paced {userdata : Bytes} (h : (clocked L).Reachable (init userdata) s) :
    ∃ R, Paced R s := by
  refine h.invariant (fun s => ∃ R, Paced R s) ⟨_, paced_init userdata⟩ ?_
  rintro s e o s' ⟨R, hs⟩ hstep
  cases hstep with
  | send hr hnow hne hlen => exact ⟨R, hs.deliver hr hnow hne hlen⟩
  | accept hnow h => exact hs.accept hnow h
  | poll hr hnow hfree hlater _ h => exact hs.poll hnow hfree hlater h _
  | sleep hnow hfree h => exact ⟨R, hs.sleep hnow hfree h⟩

/-! ### Spam in time -/

/-- A poll can read a message exactly if there is one. -/
lemma Reads.exists_iff {n : ℕ} (h : s.Reads n w) :
    w.status ≠ .disconnected ∧ w.data ≠ [] ↔ ∃ m, (s.inbox n).head? = some m := by
  rw [Reads] at h
  cases hinbox : s.inbox n with
  | nil =>
    rw [hinbox] at h
    simp [show w.data = [] from h]
  | cons m ms =>
    rw [hinbox] at h
    obtain ⟨hopen, hdata⟩ := h
    simp [hopen, hdata, m.data_ne_nil]

/-- Whoever is polled in time reads spam only if its clock overflows. -/
lemma Paced.request_spam_iff (h : Paced R s) (hr : R.rows[s.manager.iterator]? = some r)
    (hfree : s.free ≤ w.now) (hread : s.Reads r.conn w) :
    R.request L w r = .ok .spam ↔ (∃ m, (s.inbox r.conn).head? = some m) ∧ r.status = .done ∧
      Overflows (w.now - r.interval) := by
  rw [Room.request_spam_iff, ← hread.exists_iff, and_assoc]
  refine and_congr_right fun _ => and_congr_right fun _ => and_congr_right fun hdone => ?_
  apply asMilliseconds_le_iff
  apply Nat.le_sub_of_add_le
  calc 100 + r.interval
    _ = r.interval + 100 := Nat.add_comm _ _
    _ ≤ s.free := h.waiting _ r le_rfl hr hdone
    _ ≤ w.now := hfree

/-- A poll of the clock is one of the room. -/
lemma Step.poll_room {s' : Clocked} {o : Obs} (h : Step L s (.poll w) o s')
    (hconfig : s.manager.config = R.config) :
    ∃ r q req, R.rows[s.manager.iterator]? = some r ∧ s.free ≤ w.now ∧ s.Reads r.conn w ∧
      R.request L w r = .ok req ∧ R.serve L w s.manager.iterator r = .ok q ∧ o.acts = q.acts := by
  cases h with
  | poll hr' _ hfree _ hread h =>
    obtain ⟨r, q, hr, hserve, rfl, -⟩ := h.poll_room hconfig
    obtain ⟨req, hreq, -⟩ := Room.serve_outcome hserve
    rw [hconfig, Room.config_row?, hr, Option.some.injEq] at hr'
    subst hr'
    exact ⟨r, q, req, hr, hfree, hread, hreq, hserve, rfl⟩

lemma Step.poll_of_disconnected {e : Event} {o : Obs} {s' : Clocked} (h : Step L s e o s')
    (hconfig : s.manager.config = R.config) {k : ℕ} {reason : DisconnectReason}
    (ha : .disconnected k reason ∈ o.acts) : ∃ w, e = .poll w := by
  cases h with
  | poll => exact ⟨_, rfl⟩
  | send => simp at ha
  | accept _ h =>
    cases h with
    | accept h =>
      rw [hconfig] at h
      obtain ⟨R', rfl, hroom⟩ := room_embeds L R _ _ _ h
      cases hroom <;> simp at ha
  | sleep _ _ h =>
    cases h with
    | sleep => simp at ha

variable {st : System.Step Clocked Event Obs}

/-- Who is disconnected for spam. -/
lemma Paced.disconnected_iff (h : Paced R st.pre) (hstep : Step L st.pre st.event st.obs st.post)
    {k : ℕ} :
    .disconnected k .disconnectSpam ∈ st.obs.acts ↔ k = st.pre.manager.iterator ∧
      ∃ w r m, Reading st w r m ∧ r.status = .done ∧ Overflows (w.now - r.interval) := by
  constructor
  · intro ha
    obtain ⟨w, hw⟩ := hstep.poll_of_disconnected h.config ha
    rw [hw] at hstep
    obtain ⟨r, q, req, hr, hfree, hread, hreq, hserve, hacts⟩ := hstep.poll_room h.config
    rw [hacts] at ha
    obtain ⟨hk, rfl⟩ := (Room.disconnected_spam_iff hreq hserve).mp ha
    obtain ⟨⟨m, hm⟩, hspam⟩ := (h.request_spam_iff hr hfree hread).mp hreq
    refine ⟨hk, w, r, m, ⟨hw, ?_, hm⟩, hspam⟩
    rw [h.config, Room.config_row?, hr]
  · rintro ⟨rfl, w, r, m, ⟨hw, hrow, hm⟩, hspam⟩
    rw [hw] at hstep
    obtain ⟨r', q, req, hr, hfree, hread, hreq, hserve, hacts⟩ := hstep.poll_room h.config
    rw [h.config, Room.config_row?] at hrow
    cases hr.symm.trans hrow
    have hreq' : R.request L w r = .ok .spam :=
      (h.request_spam_iff hr hfree hread).mpr ⟨⟨m, hm⟩, hspam⟩
    rw [hacts]
    exact (Room.disconnected_spam_iff hreq' hserve).mpr ⟨rfl, rfl⟩

lemma Paced.not_broadcast (h : Paced R st.pre) (hstep : Step L st.pre st.event st.obs st.post)
    {k : ℕ} (ha : .disconnected k .disconnectSpam ∈ st.obs.acts) (data : Bytes) :
    .broadcast (48 :: data) ∉ st.obs.acts := by
  obtain ⟨w, hw⟩ := hstep.poll_of_disconnected h.config ha
  rw [hw] at hstep
  obtain ⟨r, q, req, -, -, -, hreq, hserve, hacts⟩ := hstep.poll_room h.config
  rw [hacts] at ha ⊢
  obtain ⟨-, rfl⟩ := (Room.disconnected_spam_iff hreq hserve).mp ha
  exact Room.not_broadcast_of_spam hreq hserve

/-- The sender of a message that was `Done` when it sent it still is when the message is read. -/
lemma Paced.done_of_reading (h : Paced R st.pre) {m : Message} (hread : Reading st w r m)
    (hdone : m.done = true) : r.status = .done := by
  have hrow := hread.row
  rw [h.config, Room.config_row?] at hrow
  have hmem := List.mem_of_mem_head? hread.message
  exact (h.senders r.conn m hmem hdone).2 r (List.mem_of_getElem? hrow) rfl

lemma Paced.rateLimited_iff (h : Paced R st.pre)
    (hstep : Step L st.pre st.event st.obs st.post) : RateLimited L st ↔ OverflowsFit L st := by
  constructor
  · intro hlim
    constructor
    · intro w r m hread hdone hquick hchat
      have hacts := (hlim.quick w r m hread hdone hquick hchat).1
      obtain ⟨-, w', r', m', hread', -, hover⟩ := (h.disconnected_iff hstep).mp hacts
      cases hread.event.symm.trans hread'.event
      cases hread.row.symm.trans hread'.row
      exact hover
    · intro w r m hread hdone hover
      have hacts := (h.disconnected_iff hstep).mpr ⟨rfl, w, r, m, hread, hdone, hover⟩
      exact hlim.spaced _ r hacts hread.row
  · intro hfit
    constructor
    · intro w r m hread hdone hquick hchat
      have hover := hfit.quick w r m hread hdone hquick hchat
      have hacts := (h.disconnected_iff hstep).mpr
        ⟨rfl, w, r, m, hread, h.done_of_reading hread hdone, hover⟩
      exact ⟨hacts, h.not_broadcast hstep hacts⟩
    · intro k r hacts hr
      obtain ⟨rfl, w, r', m, hread, hdone, hover⟩ := (h.disconnected_iff hstep).mp hacts
      cases hr.symm.trans hread.row
      exact hfit.spaced w r m hread hdone hover

end Clocked

/-- Rate limiting holds in a run exactly if the clocks overflow for the quick clients and for no
others. -/
theorem rate_limited_iff (L : Library) (userdata : Bytes)
    {steps : List (System.Step Clocked Clocked.Event Obs)} {s : Clocked}
    (h : (clocked L).Run (Clocked.init userdata) steps s) :
    (∀ st ∈ steps, Clocked.RateLimited L st) ↔ ∀ st ∈ steps, Clocked.OverflowsFit L st := by
  have hiff : ∀ st ∈ steps, (Clocked.RateLimited L st ↔ Clocked.OverflowsFit L st) := by
    intro st hst
    obtain ⟨hreach, hstep⟩ := h.of_mem hst
    obtain ⟨R, hpaced⟩ := Clocked.exists_paced hreach
    exact hpaced.rateLimited_iff hstep
  exact forall₂_congr hiff

/-! ### Two messages in 10 ms -/

lemma Clocked.run_of_play {es : List Clocked.Event}
    {steps : List (System.Step Clocked Clocked.Event Obs)} {s₀ s : Clocked}
    (h : System.play (Clocked.fire L) s₀ es = some (steps, s)) : (clocked L).Run s₀ steps s :=
  System.run_of_play (fun _ _ _ hfire => Clocked.fire_eq_some hfire) h

namespace Toy

/-- A poll at the time `now` that reads `data`. -/
def hears (data : Bytes) (now : ℕ) : Clocked.Event := .poll (world .done data now)

/-- A poll at the time `now` that finds nothing to read. -/
def idles (now : ℕ) : Clocked.Event := .poll (world .notReady [] now)

/-- Two clients log in. One of them sends two chat messages, 10 ms after each other, of which the
server has read the first. -/
def hurries : List Clocked.Event :=
  [.accept 1 (world .done [] 0), .accept 2 (world .done [] 0),
    .send 0 0 (logsIn (ascii "alice") (ascii "pw")), .send 1 0 (logsIn (ascii "bob") (ascii "pw")),
    hears (logsIn (ascii "alice") (ascii "pw")) 0, hears (logsIn (ascii "bob") (ascii "pw")) 0,
    .sleep 100, .send 0 100 modulus, .send 1 100 modulus, hears modulus 100, hears modulus 100,
    .sleep 200, .send 0 200 (seals (ascii "0hello")), .send 0 210 (seals (ascii "0hello")),
    hears (seals (ascii "0hello")) 210, idles 210, .sleep 310]

/-- What is sent to the other client. -/
def hello : Bytes := [separator] ++ ascii "hello" ++ [separator] ++ ascii "alice"

end Toy

theorem rate_limited_iff_toy :
    ∃ steps s, System.play (Clocked.fire toy) (Clocked.init []) Toy.hurries = some (steps, s) ∧
      ((∀ st ∈ steps, Clocked.RateLimited toy st) ↔ ∀ st ∈ steps, Clocked.OverflowsFit toy st) := by
  have hsome : (System.play (Clocked.fire toy) (Clocked.init []) Toy.hurries).isSome = true := by
    decide +kernel
  obtain ⟨⟨steps, s⟩, hplay⟩ := Option.isSome_iff_exists.mp hsome
  exact ⟨steps, s, hplay, rate_limited_iff toy [] (Clocked.run_of_play hplay)⟩

/-- The second message is broadcast as well. -/
theorem not_rate_limited_toy :
    ¬ ∀ steps s, (clocked toy).Run (Clocked.init []) steps s →
      ∀ st ∈ steps, Clocked.RateLimited toy st := by
  have hplayed : ((System.play (Clocked.fire toy) (Clocked.init []) Toy.hurries).bind fun x =>
      (Clocked.fire toy x.2 (Toy.hears (Toy.seals (ascii "0hello")) 310)).bind fun st =>
        (st.pre.manager.config.row? st.pre.manager.iterator).bind fun r =>
          (st.pre.inbox r.conn).head?.map fun m =>
            (m.data, m.sentAt, m.previous, m.done,
              decide (Act.broadcast (48 :: Toy.hello) ∈ st.obs.acts))) =
      some (Toy.seals (ascii "0hello"), 210, some 200, true, true) := by decide +kernel
  obtain ⟨⟨steps, s⟩, hplay, hplayed⟩ := Option.bind_eq_some_iff.mp hplayed
  obtain ⟨st, hfire, hplayed⟩ := Option.bind_eq_some_iff.mp hplayed
  obtain ⟨r, hr, hplayed⟩ := Option.bind_eq_some_iff.mp hplayed
  obtain ⟨m, hm, hplayed⟩ := Option.map_eq_some_iff.mp hplayed
  simp only [Prod.mk.injEq, decide_eq_true_eq] at hplayed
  obtain ⟨hdata, hsent, hprevious, hdone, hbroadcast⟩ := hplayed
  obtain ⟨rfl, hevent, hstep⟩ := Clocked.fire_eq_some hfire
  intro hall
  have hlim := hall _ _ ((Clocked.run_of_play hplay).snoc hstep) _
    (List.mem_append_right _ (List.mem_singleton_self _))
  have hquick : m.Quick := ⟨200, hprevious, by rw [hsent]; decide⟩
  have hchat : IsChat toy m.data := ⟨_, ascii "hello", by rw [hdata]; exact Toy.decrypt_seals _⟩
  exact (hlim.quick _ r m ⟨rfl, hr, hm⟩ hdone hquick hchat).2 Toy.hello hbroadcast

end OpenSimp
