import OpenSimp.Properties.SessionKeys
import OpenSimp.Room.Messages
import OpenSimp.Room.Stage

/-!
# What the server sends on each connection

As long as nobody sends a direct message to its client while it is still exchanging keys, the
server is a `party` for a connection: whatever the other clients do, the messages on it are the
ones of its own handshake. A `msg` command is the only way to send a client anything else before it
is `Done`, since `broadcast` checks the status of the clients and `sendString` does not.
-/

namespace OpenSimp

open Bytes FaultState System ServerNetwork

variable {R R' : Room} {L : Library} {w : World} {i n : ℕ} {r : Row} {req : Request} {q : Reply}
  {e : Event} {o : Obs}

/-- What a poll that answers `w` reads. -/
def World.poll (w : World) : Poll :=
  if w.status = .disconnected then .closed else if w.data = [] then .nothing else .read w.data

namespace Config

variable (c : Config) (n : ℕ)

/-- The row of the connection `n`. -/
def find : Option Row := do
  let k ← (c.owners .clientArray).idxOf? n
  c.row? k

def stageOf : Stage :=
  match c.find n with
  | some r => .present r.status
  | none => if c.accepted ≤ n then .unaccepted else .gone

/-- What an event reads from the connection `n`. -/
def pollOf : Event → Poll
  | .accept _ _ => .nothing
  | .receive i w =>
    match c.row? i with
    | some r => if r.conn = n then w.poll else .nothing
    | none => .nothing

end Config

/-- The packets that a step sends on the connection `n`, which it may have accepted itself. -/
def sentOn (n : ℕ) (st : Step Config Event Obs) : List Packet :=
  match (st.pre.find n).or (st.post.find n) with
  | some r => sentTo r.sock st.obs.acts
  | none => []

/-- A step of the server as the connection `n` sees it. -/
def onConnection (n : ℕ) (st : Step Config Event Obs) : Step Stage Poll (List Packet) :=
  ⟨st.pre.stageOf n, st.pre.pollOf n st.event, sentOn n st, st.post.stageOf n⟩

/-- In the steps of a run that reaches `c` the server has sent on the connection `n` what the stage
of its handshake asks for. -/
def Config.Handshaken (L : Library) (c : Config) (steps : List (Step Config Event Obs)) (n : ℕ) :
    Prop :=
  Progress L (steps.map (onConnection n)) (c.stageOf n) (steps.flatMap (sentOn n))

/-- The event is a `msg` command to the client on the connection `n`, which is still exchanging
keys. -/
def Event.Intrudes (L : Library) (n : ℕ) (c : Config) : Event → Prop
  | .accept _ _ => False
  | .receive i w => ∃ r text args k target, c.row? i = some r ∧
      c.request w r L = .ok (.command text) ∧
      Lexer.lex text (List.replicate Executor.slots []) space = .ok args ∧
      args.getD 0 [] = ascii "msg" ∧ c.row? k = some target ∧
      target.clientid = args.getD 1 [] ∧ target.conn = n ∧ target.status = .keyReceived

/-! ### Connections of a room -/

lemma Room.find_config : R.config.find n = some r ↔ r ∈ R.rows ∧ r.conn = n := by
  have howners : R.config.owners .clientArray = R.rows.map Row.conn := rfl
  rw [Config.find, howners]
  by_cases hmem : n ∈ R.rows.map Row.conn
  · obtain ⟨k, r', hk, hr', hfind⟩ := List.exists_idxOf?_map hmem
    have hconn : r'.conn = n := by simpa using List.find?_some hfind
    rw [hk, Option.bind_eq_bind, Option.bind_some, Room.config_row?, hr', Option.some.injEq]
    constructor
    · rintro rfl
      exact ⟨List.mem_of_getElem? hr', hconn⟩
    · rintro ⟨hr, hn⟩
      exact List.eq_of_map_nodup R.nodup_conn (List.mem_of_getElem? hr') hr (hconn.trans hn.symm)
  · rw [List.idxOf?_eq_none_iff.mpr hmem]
    apply iff_of_false (by simp)
    rintro ⟨hr, rfl⟩
    exact hmem (List.mem_map_of_mem hr)

lemma Room.find_config_eq_none : R.config.find n = none ↔ ∀ r ∈ R.rows, r.conn ≠ n := by
  rw [Option.eq_none_iff_forall_ne_some]
  constructor
  · intro h r hr hconn
    exact h r (Room.find_config.mpr ⟨hr, hconn⟩)
  · intro h r hr
    obtain ⟨hmem, hconn⟩ := Room.find_config.mp hr
    exact h r hmem hconn

lemma Room.stageOf_of_mem (hr : r ∈ R.rows) : R.config.stageOf r.conn = .present r.status := by
  rw [Config.stageOf, Room.find_config.mpr ⟨hr, rfl⟩]

lemma Room.stageOf_of_not_mem (hn : ∀ r ∈ R.rows, r.conn ≠ n) :
    R.config.stageOf n = if R.accepted ≤ n then .unaccepted else .gone := by
  rw [Config.stageOf, Room.find_config_eq_none.mpr hn]
  rfl

lemma Room.stageOf_of_erases (hr : R.rows[i]? = some r) (h : q.Erases R i) :
    q.room.config.stageOf r.conn = .gone := by
  have hmem := List.mem_of_getElem? hr
  rw [Room.stageOf_of_not_mem, h.accepted, if_neg (not_le.mpr (R.conn_lt r hmem))]
  intro r' hr' hconn
  rw [h.mem_rows hr] at hr'
  exact hr'.2 (List.eq_of_map_nodup R.nodup_conn hr'.1 hmem hconn)

lemma Room.stageOf_of_changes (hr : R.rows[i]? = some r) {f : Profile → Profile}
    (h : q.Changes R i f) : q.room.config.stageOf r.conn = .present (f r.toProfile).status := by
  have hmem : r.update f ∈ q.room.rows := (h.mem_rows hr).mpr (.inl rfl)
  exact Room.stageOf_of_mem hmem

/-- A poll leaves the rows of the other clients as they are. -/
lemma Room.mem_of_serve (hr : R.rows[i]? = some r) (hserve : R.serve L w i r = .ok q) {r' : Row}
    (hr' : r' ∈ R.rows) (hne : r' ≠ r) : r' ∈ q.room.rows := by
  obtain ⟨req, -, hout⟩ := Room.serve_outcome hserve
  rcases hout.changes_or_erases with ⟨f, hc⟩ | hc
  · exact (hc.mem_rows hr).mpr (.inr ⟨hr', hne⟩)
  · exact (hc.mem_rows hr).mpr ⟨hr', hne⟩

lemma sentOn_of_mem (hr : r ∈ R.rows) :
    sentOn r.conn ⟨R.config, e, o, R'.config⟩ = sentTo r.sock o.acts := by
  rw [sentOn, Room.find_config.mpr ⟨hr, rfl⟩]
  rfl

lemma sentOn_of_mem_post (hn : ∀ r ∈ R.rows, r.conn ≠ n) (hr : r ∈ R'.rows) (hconn : r.conn = n) :
    sentOn n ⟨R.config, e, o, R'.config⟩ = sentTo r.sock o.acts := by
  rw [sentOn, Room.find_config_eq_none.mpr hn, Room.find_config.mpr ⟨hr, hconn⟩]
  rfl

lemma sentOn_of_not_mem (hn : ∀ r ∈ R.rows, r.conn ≠ n) (hn' : ∀ r ∈ R'.rows, r.conn ≠ n) :
    sentOn n ⟨R.config, e, o, R'.config⟩ = [] := by
  rw [sentOn, Room.find_config_eq_none.mpr hn, Room.find_config_eq_none.mpr hn']
  rfl

lemma Room.pollOf_receive (hr : R.rows[i]? = some r) :
    R.config.pollOf n (.receive i w) = if r.conn = n then w.poll else .nothing := by
  rw [Config.pollOf, Room.config_row?, hr]

/-! ### The keys of clients that are gone -/

/-- A key in the table is the one of a `Done` client, or the server key cannot be encrypted
under it. -/
def Room.KeysSpent (L : Library) (R : Room) : Prop :=
  ∀ p n, R.keys p = some n → R.DoneOn p ∨ L.rsaEncrypt n serverKey = none

lemma Room.KeysSpent.serve (h : R.KeysSpent L) (hr : R.rows[i]? = some r)
    (hserve : R.serve L w i r = .ok q) : q.room.KeysSpent L := by
  intro p m hm
  obtain ⟨req, hreq, hout⟩ := Room.serve_outcome hserve
  have hfits := Room.request_fits hreq
  cases hout with
  | quiet hc hf hkeys | renamed hc _ hf hkeys =>
    rw [hkeys] at hm
    rw [Room.doneOn_modify_of_iff hr hc.rows (by rw [(hf r.toProfile).2])]
    exact h p m hm
  | loggedIn hc _ hf hkeys | registered hc _ hf hkeys =>
    have hundone : r.status = .undone := hfits
    rw [hkeys] at hm
    rw [Room.doneOn_modify_of_iff hr hc.rows (by simp [(hf r.toProfile).2, hundone])]
    exact h p m hm
  | keyed hc hf hkeys =>
    rw [hkeys] at hm
    rw [Room.doneOn_modify hr hc.rows]
    by_cases hp : p = r.sock
    · exact .inl (.inl ⟨hp, (hf r.toProfile).2⟩)
    · rw [Room.insertKey_of_ne hp] at hm
      rcases h p m hm with hdone | hspent
      · exact .inl (.inr ⟨hp, hdone⟩)
      · exact .inr hspent
  | refusedKey hc hct hkeys =>
    have hdone : r.status ≠ .done := fun hs => by cases hs.symm.trans hfits
    rw [hkeys, Room.disconnect, if_neg hdone] at hm
    rw [Room.doneOn_erase hr hc.rows]
    by_cases hp : p = r.sock
    · subst hp
      rw [hm, Option.bind_some] at hct
      exact .inr hct
    · rw [Room.insertKey_of_ne hp] at hm
      rcases h p m hm with hdone | hspent
      · exact .inl ⟨hp, hdone⟩
      · exact .inr hspent
  | dropped hc _ hkeys =>
    rw [hkeys] at hm
    rw [Room.doneOn_erase hr hc.rows]
    by_cases hp : p = r.sock
    · subst hp
      by_cases hdone : r.status = .done
      · simp [Room.disconnect, hdone] at hm
      · rw [Room.disconnect, if_neg hdone] at hm
        rcases h r.sock m hm with hdone' | hspent
        · exact absurd ((Room.doneOn_self hr).mp hdone') hdone
        · exact .inr hspent
    · rw [Room.keys_disconnect_of_ne hp] at hm
      rcases h p m hm with hdone | hspent
      · exact .inl ⟨hp, hdone⟩
      · exact .inr hspent

lemma Room.keysSpent_of_reachable {userdata : Bytes}
    (h : (room L).Reachable (Room.init userdata) R) : R.KeysSpent L := by
  apply h.invariant (Room.KeysSpent L)
  · intro p m hm
    cases hm
  · intro R e o R' hR hstep
    cases hstep with
    | accepted hp hstatus =>
      exact fun p m hm => (hR p m hm).imp_left (Room.doneOn_connect _ hp p).mpr
    | declined hp hstatus => exact hR
    | served hr hserve => exact hR.serve hr hserve

/-- When the server answers a key, it is the one in the message. -/
lemma Room.KeysSpent.rsaEncrypt_eq (h : R.KeysSpent L) (hr : R.rows[i]? = some r)
    (hdone : r.status ≠ .done) {m : ℤ} {ciphertext : Bytes → Bytes}
    (hct : (((R.insertKey r.sock m).keys r.sock).bind fun m => L.rsaEncrypt m serverKey) =
      some ciphertext) : L.rsaEncrypt m serverKey = some ciphertext := by
  have hkey : (R.insertKey r.sock m).keys r.sock = (R.keys r.sock).or (some m) := if_pos rfl
  rw [hkey] at hct
  cases hold : R.keys r.sock with
  | none =>
    rw [hold, Option.none_or, Option.bind_some] at hct
    exact hct
  | some m' =>
    rw [hold, Option.some_or, Option.bind_some] at hct
    rcases h _ _ hold with hdone' | hspent
    · exact absurd ((Room.doneOn_self hr).mp hdone') hdone
    · cases hspent.symm.trans hct

/-! ### The connection that is polled -/

lemma Room.poll_eq_read (hreq : R.request L w r = .ok req) (hleave : req ≠ .leave)
    (hidle : req ≠ .idle) : w.poll = .read w.data := by
  rw [Room.request] at hreq
  split_ifs at hreq with hclosed hdata
  · exact absurd (Except.ok.inj hreq).symm hleave
  · exact absurd (Except.ok.inj hreq).symm hidle
  all_goals rw [World.poll, if_neg hclosed, if_neg hdata]

lemma Room.poll_ne_nothing (hreq : R.request L w r = .ok req) (hidle : req ≠ .idle) :
    w.poll ≠ .nothing := by
  by_cases hleave : req = .leave
  · intro hpoll
    rw [Room.request] at hreq
    split_ifs at hreq with hclosed hdata
    · rw [World.poll, if_pos hclosed] at hpoll
      cases hpoll
    · exact hidle (Except.ok.inj hreq).symm
    all_goals
      rw [World.poll, if_neg hclosed, if_neg hdata] at hpoll
      cases hpoll
  · rw [Room.poll_eq_read hreq hleave hidle]
    intro hpoll
    cases hpoll

/-- A client that is disconnected is sent nothing. -/
lemma Room.moves_of_drop (hr : R.rows[i]? = some r) (hpoll : w.poll ≠ .nothing)
    (hc : q.Erases R i) {reason : DisconnectReason}
    (hacts : q.acts = R.disconnectActs w i r reason) :
    Stage.Moves L (.present r.status) w.poll (sentTo r.sock q.acts)
      (q.room.config.stageOf r.conn) := by
  rw [hacts, sentTo_disconnectActs_self, Room.stageOf_of_erases hr hc]
  exact .drops hpoll (by simp) (.inr rfl)

/-- A client that is polled without result is left as it is. -/
lemma Room.moves_of_idle (hr : R.rows[i]? = some r) (hreq : R.request L w r = .ok .idle)
    (hserve : R.serve L w i r = .ok q) :
    Stage.Moves L (.present r.status) w.poll (sentTo r.sock q.acts)
      (q.room.config.stageOf r.conn) := by
  rw [Room.serve, hreq, ok_bind, Room.respond] at hserve
  cases hserve
  have hmem : r.polled w ∈ (R.polled w i r).rows :=
    List.mem_of_getElem? (Room.getElem?_polled hr)
  have hstage := Room.stageOf_of_mem hmem
  rw [Row.polled_conn, Row.polled_status] at hstage
  rw [Reply.keep, hstage]
  exact .stays _ _

/-- A client that logs in is asked for its key. -/
lemma Room.moves_of_login (hr : R.rows[i]? = some r) (hundone : r.status = .undone)
    (hpoll : w.poll = .read w.data) {f : Profile → Profile} (hc : q.Changes R i f)
    (hf : (f r.toProfile).status = .keyReceived) (hsent : sentTo r.sock q.acts = [keyRequest]) :
    Stage.Moves L (.present r.status) w.poll (sentTo r.sock q.acts)
      (q.room.config.stageOf r.conn) := by
  rw [Room.stageOf_of_changes hr hc, hf, hundone, hpoll, hsent]
  exact .asks

lemma Room.moves_of_undone (hr : R.rows[i]? = some r) (hundone : r.status = .undone)
    (hserve : R.serve L w i r = .ok q) :
    Stage.Moves L (.present r.status) w.poll (sentTo r.sock q.acts)
      (q.room.config.stageOf r.conn) := by
  obtain ⟨req, hreq, -⟩ := Room.serve_outcome hserve
  have hfits := Room.request_fits hreq
  have hrespond := (Room.serve_of_ne_done (by simp [hundone]) hreq).symm.trans hserve
  cases req with
  | idle => exact Room.moves_of_idle hr hreq hserve
  | leave | garbledLogin | wrongPassword =>
    have hpoll := Room.poll_ne_nothing hreq (by simp)
    cases hrespond
    exact Room.moves_of_drop hr hpoll (Reply.erases_drop _ _ _) rfl
  | login u =>
    rw [Room.respond] at hrespond
    split_ifs at hrespond with hu
    · have hpoll := Room.poll_eq_read hreq (by simp) (by simp)
      cases hrespond
      refine Room.moves_of_login (f := fun p => { p with clientid := u, status := .keyReceived }) hr
        hundone hpoll ⟨rfl, List.modify_modify_eq _ _ _ _, rfl⟩ rfl ?_
      simp only [Reply.keep, sentTo_append, sentTo_joinActs_self, sentTo_sent, List.nil_append]
      rfl
    · have hpoll := Room.poll_ne_nothing hreq (by simp)
      cases hrespond
      exact Room.moves_of_drop hr hpoll (Reply.erases_drop _ _ _) rfl
  | register u p =>
    rw [Room.respond] at hrespond
    split_ifs at hrespond with hu
    · have hpoll := Room.poll_eq_read hreq (by simp) (by simp)
      cases hrespond
      refine Room.moves_of_login (f := fun p => { p with clientid := u, status := .keyReceived }) hr
        hundone hpoll ⟨rfl, List.modify_modify_eq _ _ _ _, rfl⟩ rfl ?_
      simp only [Reply.keep, sentTo_append, sentTo_joinActs_self, sentTo_self, sentTo_sent,
        List.nil_append]
      rfl
    · have hpoll := Room.poll_ne_nothing hreq (by simp)
      cases hrespond
      exact Room.moves_of_drop hr hpoll (Reply.erases_drop _ _ _) rfl
  | spam | key n => cases hundone.symm.trans hfits
  | unreadable | illegal | chat text | rename u | console | command text =>
    exact absurd hundone hfits.1

/-- A client that sends its key is answered with the server key. -/
lemma Room.moves_of_keyReceived (hK : R.KeysSpent L) (hr : R.rows[i]? = some r)
    (hkey : r.status = .keyReceived) (hserve : R.serve L w i r = .ok q) :
    Stage.Moves L (.present r.status) w.poll (sentTo r.sock q.acts)
      (q.room.config.stageOf r.conn) := by
  obtain ⟨req, hreq, -⟩ := Room.serve_outcome hserve
  have hfits := Room.request_fits hreq
  have hdone : r.status ≠ .done := by simp [hkey]
  have hrespond := (Room.serve_of_ne_done hdone hreq).symm.trans hserve
  cases req with
  | idle => exact Room.moves_of_idle hr hreq hserve
  | leave =>
    have hpoll := Room.poll_ne_nothing hreq (by simp)
    cases hrespond
    exact Room.moves_of_drop hr hpoll (Reply.erases_drop _ _ _) rfl
  | key n =>
    obtain ⟨-, -, -, text, htext, hn, -⟩ := Room.request_key_iff.mp hreq
    rw [Room.respond] at hrespond
    cases hct : ((R.insertKey r.sock n).keys r.sock).bind fun n => L.rsaEncrypt n serverKey with
    | none =>
      have hpoll := Room.poll_ne_nothing hreq (by simp)
      rw [hct] at hrespond
      cases hrespond
      exact Room.moves_of_drop hr hpoll ⟨rfl, rfl, rfl, rfl⟩ rfl
    | some ciphertext =>
      have hpoll := Room.poll_eq_read hreq (by simp) (by simp)
      rw [hct] at hrespond
      cases hrespond
      have hc : Reply.Changes (.keep ((R.insertKey r.sock n).setStatus i .done)
          [.sent r.sock (.clear (ciphertext w.seed))]) R i
          fun p => { p with status := .done } := ⟨rfl, rfl, rfl⟩
      rw [Room.stageOf_of_changes hr hc, hpoll, hkey]
      simp only [Reply.keep, sentTo_sent]
      exact .answers ⟨text, htext, hn⟩ (hK.rsaEncrypt_eq hr hdone hct)
  | garbledLogin | wrongPassword | login u | register u p | spam => cases hkey.symm.trans hfits
  | unreadable | illegal | chat text | rename u | console | command text =>
    exact absurd hkey hfits.2

/-- A `Done` client is only sent sealed packets. -/
lemma Room.moves_of_done (hr : R.rows[i]? = some r) (hdone : r.status = .done)
    (hserve : R.serve L w i r = .ok q) :
    Stage.Moves L (.present r.status) w.poll (sentTo r.sock q.acts)
      (q.room.config.stageOf r.conn) := by
  obtain ⟨req, hreq, hout⟩ := Room.serve_outcome hserve
  have hfits := Room.request_fits hreq
  have hsealed : ∀ packet ∈ sentTo r.sock q.acts, packet.Sealed := by
    intro packet hpacket
    have hemission := Room.serve_emission hr hreq hserve (mem_sentTo.mp hpacket)
    generalize r.sock = p at hemission
    cases hemission with
    | announced | told => trivial
    | spb hlogin =>
      cases req <;> first | exact hlogin.elim | cases hdone.symm.trans hfits
    | serverKey => cases hdone.symm.trans hfits
  by_cases hidle : req = .idle
  · exact Room.moves_of_idle hr (hidle ▸ hreq) hserve
  · have hpoll := Room.poll_ne_nothing hreq hidle
    rw [hdone]
    cases hout with
    | quiet hc hf | renamed hc _ hf =>
      rw [Room.stageOf_of_changes hr hc, (hf r.toProfile).2, hdone]
      exact .relays hsealed
    | loggedIn | registered | keyed => cases hdone.symm.trans hfits
    | refusedKey hc | dropped hc =>
      rw [Room.stageOf_of_erases hr hc]
      exact .drops hpoll hsealed (.inl rfl)

/-! ### The other connections -/

/-- Polling a client sends nothing to another but sealed packets if it is `Done`, unless it is a
`msg` command to the other while it is not. -/
lemma Room.sealed_of_other (hN : R.Named) (hr : R.rows[i]? = some r)
    (hserve : R.serve L w i r = .ok q) {r' : Row}
    (hquiet : ¬ (Event.receive i w).Intrudes L r'.conn R.config) (hr' : r' ∈ R.rows) (hne : r' ≠ r)
    {packet : Packet} (hpacket : packet ∈ sentTo r'.sock q.acts) :
    packet.Sealed ∧ r'.status = .done := by
  obtain ⟨req, hreq, -⟩ := Room.serve_outcome hserve
  have hsame : ∀ t ∈ R.rows, t.sock = r'.sock → t = r' :=
    fun t ht => List.eq_of_map_nodup R.nodup_sock ht hr'
  have hself : r.sock ≠ r'.sock := fun hsock => hne (hsame r (List.mem_of_getElem? hr) hsock).symm
  have hemission := Room.serve_emission hr hreq hserve (mem_sentTo.mp hpacket)
  generalize hp : r'.sock = p at hemission
  cases hemission with
  | announced h hmem hdone hpeer => exact ⟨trivial, hsame _ hmem hp.symm ▸ hdone⟩
  | spb | serverKey => exact absurd hp.symm hself
  | told h =>
    cases h with
    | unreadable | blank | help | plugins | self | unknown => exact absurd hp.symm hself
    | direct hargs hcmd hmem hid hsentinel hother =>
      cases hsame _ hmem hp.symm
      have hnamed := hN.named r' hr'
      refine ⟨trivial, hnamed.eq_done ?_ ?_⟩
      · exact fun hundone => hsentinel (hnamed.undone_iff.mp hundone)
      · intro hkey
        obtain ⟨k, hk⟩ := List.mem_iff_getElem?.mp hr'
        exact hquiet ⟨r, _, _, k, r', (Room.config_row? _ i).trans hr, hreq, hargs, hcmd,
          (Room.config_row? _ k).trans hk, hid, rfl, hkey⟩

lemma Room.moves_of_other (hN : R.Named) (hr : R.rows[i]? = some r)
    (hserve : R.serve L w i r = .ok q) {r' : Row}
    (hquiet : ¬ (Event.receive i w).Intrudes L r'.conn R.config) (hr' : r' ∈ R.rows)
    (hne : r' ≠ r) :
    Stage.Moves L (.present r'.status) .nothing (sentTo r'.sock q.acts)
      (q.room.config.stageOf r'.conn) := by
  have hsealed : ∀ packet ∈ sentTo r'.sock q.acts, packet.Sealed ∧ r'.status = .done :=
    fun packet hpacket => Room.sealed_of_other hN hr hserve hquiet hr' hne hpacket
  rw [Room.stageOf_of_mem (Room.mem_of_serve hr hserve hr' hne)]
  by_cases hdone : r'.status = .done
  · rw [hdone]
    exact .relays fun packet hpacket => (hsealed packet hpacket).1
  · have hnil : sentTo r'.sock q.acts = [] :=
      List.eq_nil_iff_forall_not_mem.mpr fun packet hpacket => hdone (hsealed packet hpacket).2
    rw [hnil]
    exact .stays _ _

/-! ### Steps -/

lemma Room.exists_conn_of_serve (hr : R.rows[i]? = some r) (hserve : R.serve L w i r = .ok q)
    {r' : Row} (hr' : r' ∈ q.room.rows) : ∃ r'' ∈ R.rows, r''.conn = r'.conn := by
  obtain ⟨req, -, hout⟩ := Room.serve_outcome hserve
  rcases hout.changes_or_erases with ⟨f, hc⟩ | hc
  · rcases (hc.mem_rows hr).mp hr' with rfl | ⟨hr', -⟩
    · exact ⟨r, List.mem_of_getElem? hr, rfl⟩
    · exact ⟨r', hr', rfl⟩
  · exact ⟨r', ((hc.mem_rows hr).mp hr').1, rfl⟩

lemma Room.accepted_of_serve (hserve : R.serve L w i r = .ok q) :
    q.room.accepted = R.accepted := by
  obtain ⟨req, -, hout⟩ := Room.serve_outcome hserve
  rcases hout.changes_or_erases with ⟨f, hc⟩ | hc
  · exact hc.accepted
  · exact hc.accepted

/-- A client that is polled. -/
lemma Room.moves_of_serve (hN : R.Named) (hK : R.KeysSpent L) (hr : R.rows[i]? = some r)
    (hserve : R.serve L w i r = .ok q) :
    Stage.Moves L (.present r.status) w.poll (sentTo r.sock q.acts)
      (q.room.config.stageOf r.conn) := by
  by_cases hundone : r.status = .undone
  · exact Room.moves_of_undone hr hundone hserve
  · by_cases hkey : r.status = .keyReceived
    · exact Room.moves_of_keyReceived hK hr hkey hserve
    · have hdone := (hN.named r (List.mem_of_getElem? hr)).eq_done hundone hkey
      exact Room.moves_of_done hr hdone hserve

/-- Accepting a connection concerns no other connection. -/
lemma Room.moves_of_accepted {p : Sock} {now : ℕ} (hp : R.live p = false) (n : ℕ) :
    Stage.Moves L (R.config.stageOf n) .nothing
      (sentOn n ⟨R.config, e, ⟨[.sent p (greeting L)], false, false⟩,
        (R.connect p now hp).config⟩)
      ((R.connect p now hp).config.stageOf n) := by
  have hfresh : Row.fresh R.accepted p now ∈ (R.connect p now hp).rows :=
    List.mem_append_right _ (List.mem_singleton_self _)
  by_cases hmem : ∃ r ∈ R.rows, r.conn = n
  · obtain ⟨r, hr, rfl⟩ := hmem
    have hsock : r.sock ≠ p := by
      rintro rfl
      cases hp.symm.trans (Room.live_of_mem hr)
    rw [sentOn_of_mem hr, Room.stageOf_of_mem hr,
      Room.stageOf_of_mem (List.mem_append_left [Row.fresh R.accepted p now] hr :
        r ∈ (R.connect p now hp).rows)]
    have hnil : sentTo r.sock [Act.sent p (greeting L)] = [] := by simp [sentTo, Ne.symm hsock]
    rw [hnil]
    exact .stays _ _
  · simp only [not_exists, not_and] at hmem
    rw [Room.stageOf_of_not_mem hmem]
    by_cases hn : n = R.accepted
    · subst hn
      have hstage := Room.stageOf_of_mem hfresh
      have hsent : sentTo p [Act.sent p (greeting L)] = [greeting L] := sentTo_sent p _
      rw [if_pos le_rfl, sentOn_of_mem_post hmem hfresh rfl]
      exact hsent ▸ hstage ▸ .accepts
    · have hmem' : ∀ r ∈ (R.connect p now hp).rows, r.conn ≠ n := by
        intro r hr
        rcases List.mem_append.mp hr with hr | hr
        · exact hmem r hr
        · rw [List.mem_singleton.mp hr]
          exact Ne.symm hn
      have haccepted : (R.connect p now hp).accepted ≤ n ↔ R.accepted ≤ n := by
        have : (R.connect p now hp).accepted = R.accepted + 1 := rfl
        omega
      rw [sentOn_of_not_mem hmem hmem', Room.stageOf_of_not_mem hmem']
      simp only [haccepted]
      exact .stays _ _

/-- A step of the server that does not intrude on a connection is a step of the connection's
party. -/
theorem Room.Step.moves (hN : R.Named) (hK : R.KeysSpent L) (h : Room.Step L R e o R')
    (hquiet : ¬ e.Intrudes L n R.config) :
    Stage.Moves L (R.config.stageOf n) (R.config.pollOf n e)
      (sentOn n ⟨R.config, e, o, R'.config⟩) (R'.config.stageOf n) := by
  cases h with
  | accepted hp hstatus => exact Room.moves_of_accepted hp n
  | @declined p w hp hstatus =>
    have hnil : sentOn n ⟨R.config, .accept p w, ⟨[], false, false⟩, R.config⟩ = [] := by
      rw [sentOn]
      split <;> rfl
    rw [hnil]
    exact .stays _ _
  | @served i w r q hr hserve =>
    by_cases hmem : ∃ r' ∈ R.rows, r'.conn = n
    · obtain ⟨r', hr', rfl⟩ := hmem
      rw [Room.stageOf_of_mem hr', sentOn_of_mem hr', Room.pollOf_receive hr]
      by_cases heq : r' = r
      · subst heq
        rw [if_pos rfl]
        exact Room.moves_of_serve hN hK hr hserve
      · rw [if_neg fun hconn => heq
          (List.eq_of_map_nodup R.nodup_conn hr' (List.mem_of_getElem? hr) hconn.symm)]
        exact Room.moves_of_other hN hr hserve hquiet hr' heq
    · simp only [not_exists, not_and] at hmem
      have hmem' : ∀ r' ∈ q.room.rows, r'.conn ≠ n := by
        intro r' hr' hconn
        obtain ⟨r'', hr'', hconn'⟩ := Room.exists_conn_of_serve hr hserve hr'
        exact hmem r'' hr'' (hconn'.trans hconn)
      rw [sentOn_of_not_mem hmem hmem', Room.stageOf_of_not_mem hmem,
        Room.stageOf_of_not_mem hmem', Room.accepted_of_serve hserve]
      exact .stays _ _

/-- A `msg` command to a client that is still exchanging keys sends it a sealed packet. -/
lemma Room.Step.sealed_of_intrudes (hN : R.Named) (h : Room.Step L R e o R')
    (hintrudes : e.Intrudes L n R.config) :
    (∃ packet ∈ sentOn n ⟨R.config, e, o, R'.config⟩, packet.Sealed) ∧
      R'.config.stageOf n = .present .keyReceived := by
  cases e with
  | accept => exact hintrudes.elim
  | receive i w =>
    obtain ⟨r, text, args, k, target, hr, hreq, hargs, hcmd, hk, hid, rfl, hkey⟩ := hintrudes
    obtain ⟨r₁, q, hr₁, hserve, rfl, rfl⟩ := Room.Step.served_inv h
    cases hr₁.symm.trans ((Room.config_row? _ i).symm.trans hr)
    rw [Room.config_request] at hreq
    have hmem := List.mem_of_getElem? ((Room.config_row? _ k).symm.trans hk)
    have hne : target ≠ r := by
      rintro rfl
      exact (Room.request_fits hreq).2 hkey
    have hundone : target.status ≠ .undone := by simp [hkey]
    have hother : target.clientid ≠ r.clientid := by
      intro heq
      apply hne
      apply hN.unique target hmem r (List.mem_of_getElem? hr₁) heq
      exact fun hs => hundone ((hN.named target hmem).undone_iff.mpr hs)
    have hact := Room.sent_of_msg hN hreq hserve hargs hcmd hmem hid hundone hother
    constructor
    · refine ⟨directPacket (directText target.clientid r.clientid args), ?_, trivial⟩
      rw [sentOn_of_mem hmem, mem_sentTo]
      exact hact
    · rw [Room.stageOf_of_mem (Room.mem_of_serve hr₁ hserve hmem hne), hkey]

/-! ### Runs -/

/-- The same for the server's own steps. -/
lemma moves_of_step {userdata : Bytes} {c c' : Config}
    (h : (server L).Reachable (Config.init userdata) c) (hstep : (server L).step c e o c')
    (hquiet : ¬ e.Intrudes L n c) :
    Stage.Moves L (c.stageOf n) (c.pollOf n e) (sentOn n ⟨c, e, o, c'⟩) (c'.stageOf n) := by
  obtain ⟨R, hR, rfl⟩ := reachable_lift h
  obtain ⟨R', rfl, hrstep⟩ := room_embeds L R _ _ _ hstep
  exact Room.Step.moves (Room.named_of_reachable hR) (Room.keysSpent_of_reachable hR) hrstep hquiet

/-- In a run without such a command to its client a connection sees its own handshake only. -/
theorem handshaken_of_quiet {userdata : Bytes} {steps : List (Step Config Event Obs)}
    {c : Config} (h : (server L).Run (Config.init userdata) steps c)
    (hquiet : ∀ st ∈ steps, ¬ st.event.Intrudes L n st.pre) : c.Handshaken L steps n := by
  have hrun : (party L).Run .unaccepted (steps.filterMap (some ∘ onConnection n))
      (c.stageOf n) := by
    have hinit : (Config.init userdata).stageOf n = .unaccepted := rfl
    rw [← hinit]
    refine h.filterMap (f := fun c => c.stageOf n) ?_ ?_
    · rintro st hst st' ⟨⟩
      obtain ⟨hreach, hstep⟩ := h.of_mem hst
      exact ⟨rfl, rfl, moves_of_step hreach hstep (hquiet st hst)⟩
    · rintro st - ⟨⟩
  rw [List.filterMap_eq_map] at hrun
  have hprogress := progress_of_run hrun
  rwa [List.flatMap_map] at hprogress

/-- Such a command breaks the handshake it intrudes on. -/
lemma not_handshaken_of_intrudes {userdata : Bytes} {steps : List (Step Config Event Obs)}
    {c c' : Config} (h : (server L).Reachable (Config.init userdata) c)
    (hstep : (server L).step c e o c') (hintrudes : e.Intrudes L n c) :
    ¬ c'.Handshaken L (steps ++ [⟨c, e, o, c'⟩]) n := by
  obtain ⟨R, hR, rfl⟩ := reachable_lift h
  obtain ⟨R', rfl, hrstep⟩ := room_embeds L R _ _ _ hstep
  obtain ⟨⟨packet, hpacket, hsealed⟩, hstage⟩ :=
    Room.Step.sealed_of_intrudes (Room.named_of_reachable hR) hrstep hintrudes
  intro hprogress
  rw [Config.Handshaken, hstage] at hprogress
  refine hprogress.not_sealed ?_ hsealed
  rw [List.flatMap_append, List.flatMap_singleton]
  exact List.mem_append_right _ hpacket

end OpenSimp
