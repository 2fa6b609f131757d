import Mathlib.Data.List.Infix
import OpenSimp.Clients.Cpp
import OpenSimp.Clients.Window
import OpenSimp.Properties.Credentials
import OpenSimp.Properties.Framing
import OpenSimp.Properties.Identity
import OpenSimp.Properties.Relaying
import OpenSimp.Room.Conduct

/-!
# What the server reads from a client

The server reads the credentials of a client first, then its key, and from then on its packets. A
client has the alias of its credentials until it asks to be renamed, which neither client of the
repository ever does: whatever the others send, such a client keeps its name.
-/

namespace OpenSimp

open Bytes FaultState System ServerNetwork

variable {R R' : Room} {L : Library} {w : World} {i n : ℕ} {r : Row} {req : Request} {q : Reply}
  {e : Event} {o : Obs}

/-- What a step reads from the connection `n`. -/
def readOn (n : ℕ) (st : Step Config Event Obs) : List Bytes := (st.pre.pollOf n st.event).data

/-- What some steps read from the connection `n`. -/
def readsOn (n : ℕ) (steps : List (Step Config Event Obs)) : List Bytes := steps.flatMap (readOn n)

/-- What some steps read from the connection `n` while its client is `Done`. -/
def packetsOn (n : ℕ) (steps : List (Step Config Event Obs)) : List Bytes :=
  readsOn n (steps.filter fun st => st.pre.isDone n)

/-- The bytes `data` are an encrypted packet of the plaintext `d`. -/
def Opens (L : Library) (d data : Bytes) : Prop :=
  ∃ iv, Cryptography.decrypt L data serverKey = .ok (iv, d)

/-- The plaintext is one that a client of the repository sends for what its user types. -/
def Typed (d : Bytes) : Prop :=
  (∃ uwuify message, (Rust.sendMessage uwuify message).2 = some d) ∨
    ∃ line, Cpp.userInput line = d

/-- A connection from which `reads` are read is that of a client with the credentials `uname` and
`passwd`, whose packets have the given plaintexts. -/
structure Follows (L : Library) (uname passwd : Bytes) (plaintexts reads : List Bytes) : Prop where
  head : ∀ login, reads.head? = some login → L.rsaDecrypt login = some (credits uname passwd)
  packets : ∃ packets, List.Forall₂ (Opens L) plaintexts packets ∧ reads.drop 2 <+: packets

/-- A poll for which the server disconnects the `Done` client of the row `r`: it finds that the
client has hung up, or it reads bytes 20 ms after the last restart of the client's clock or sooner,
or a packet of a plaintext that is not let through, or of a blank message. -/
def Quits (L : Library) (w : World) (r : Row) : Prop :=
  w.status = .disconnected ∨ w.data ≠ [] ∧ (asMilliseconds (w.now - r.interval) ≤ 20 ∨
    ∃ d, Opens L d w.data ∧ (¬ Admissible d ∨ ∃ text, d = 48 :: text ∧ isBlank (cstr text) = true))

/-- The event is a poll of the client on the connection `n` for which the client quits. -/
def Event.Quits (L : Library) (n : ℕ) (c : Config) : Event → Prop
  | .accept _ _ => False
  | .receive i w => ∃ r, c.row? i = some r ∧ r.conn = n ∧ OpenSimp.Quits L w r

/-- The client of the row has proved the alias that its first message presents, and has it unless
one of its packets asked for another. -/
def Row.Presents (L : Library) (r : Row) (steps : List (System.Step Config Event Obs)) : Prop :=
  ∃ login u p, (readsOn r.conn steps).head? = some login ∧ Presented L login u p ∧
    (∃ st ∈ steps, Proves L st r.conn u) ∧
    (r.clientid = u ∨ ∃ data ∈ packetsOn r.conn steps, ∃ d, Opens L d data ∧ startsWith 51 d = true)

/-- What the reads of a connection have to do with its row. -/
structure Row.Heard (L : Library) (r : Row) (steps : List (System.Step Config Event Obs)) :
    Prop where
  undone : r.status = .undone → readsOn r.conn steps = []
  keyReceived : r.status = .keyReceived → (readsOn r.conn steps).length = 1
  done : r.status = .done → 2 ≤ (readsOn r.conn steps).length
  named : r.status ≠ .undone → r.Presents L steps

/-- What the reads of the connections have to do with the room. -/
structure Room.Heard (L : Library) (R : Room) (steps : List (System.Step Config Event Obs)) :
    Prop where
  packets : ∀ n, (readsOn n steps).drop 2 = packetsOn n steps
  unaccepted : ∀ n, R.accepted ≤ n → readsOn n steps = []
  heard : ∀ r ∈ R.rows, r.Heard L steps

/-! ### Reads -/

section Reads

variable {steps more : List (Step Config Event Obs)} {st : Step Config Event Obs}

lemma readsOn_append : readsOn n (steps ++ more) = readsOn n steps ++ readsOn n more :=
  List.flatMap_append

lemma readsOn_singleton : readsOn n [st] = readOn n st := List.flatMap_singleton _ _

lemma packetsOn_append : packetsOn n (steps ++ more) = packetsOn n steps ++ packetsOn n more := by
  rw [packetsOn, List.filter_append, readsOn_append]
  rfl

lemma packetsOn_singleton : packetsOn n [st] = if st.pre.isDone n then readOn n st else [] := by
  rw [packetsOn]
  by_cases hdone : st.pre.isDone n = true
  · rw [List.filter_cons_of_pos (by exact hdone), List.filter_nil, readsOn_singleton,
      if_pos hdone]
  · rw [List.filter_cons_of_neg (by exact hdone), List.filter_nil, if_neg hdone]
    rfl

/-- The alias of a client goes back to its first message whatever happens later. -/
lemma Row.Presents.append {r' : Row} (h : r.Presents L steps) (hconn : r'.conn = r.conn)
    (hid : r'.clientid = r.clientid ∨
      ∃ data ∈ packetsOn r.conn more, ∃ d, Opens L d data ∧ startsWith 51 d = true) :
    r'.Presents L (steps ++ more) := by
  obtain ⟨login, u, p, hlogin, hpres, ⟨st, hst, hproves⟩, hname⟩ := h
  rw [Row.Presents, hconn]
  refine ⟨login, u, p, ?_, hpres, ⟨st, List.mem_append_left _ hst, hproves⟩, ?_⟩
  · rw [readsOn_append, List.head?_append, hlogin]
    rfl
  · rw [packetsOn_append]
    rcases hid with hid | ⟨data, hdata, hopens⟩
    · rw [hid]
      exact hname.imp_right fun ⟨data, hdata, hopens⟩ =>
        ⟨data, List.mem_append_left _ hdata, hopens⟩
    · exact .inr ⟨data, List.mem_append_right _ hdata, hopens⟩

/-- Steps that read nothing from a client, and leave its alias and its status. -/
lemma Row.Heard.append_silent {r' : Row} (h : r.Heard L steps) (hmore : readsOn r.conn more = [])
    (hconn : r'.conn = r.conn) (hstatus : r'.status = r.status)
    (hid : r'.clientid = r.clientid) : r'.Heard L (steps ++ more) := by
  have hreads : readsOn r.conn (steps ++ more) = readsOn r.conn steps := by
    rw [readsOn_append, hmore, List.append_nil]
  constructor
  · rw [hconn, hstatus, hreads]
    exact h.undone
  · rw [hconn, hstatus, hreads]
    exact h.keyReceived
  · rw [hconn, hstatus, hreads]
    exact h.done
  · rw [hstatus]
    exact fun hs => (h.named hs).append hconn (.inl hid)

end Reads

lemma Room.readOn_other (hr : R.rows[i]? = some r) (hn : r.conn ≠ n) :
    readOn n ⟨R.config, .receive i w, o, R'.config⟩ = [] := by
  rw [readOn, Room.pollOf_receive hr, if_neg hn]
  rfl

lemma Room.readOn_self (hr : R.rows[i]? = some r) :
    readOn r.conn ⟨R.config, .receive i w, o, R'.config⟩ = w.poll.data := by
  rw [readOn, Room.pollOf_receive hr, if_pos rfl]

/-- A poll reads the bytes from which its request is read. -/
lemma Room.data_poll (hreq : R.request L w r = .ok req) :
    w.poll.data = [w.data] ∧ req.Read ∨ w.poll.data = [] ∧ ¬ req.Read := by
  rw [Room.request_read_iff hreq, World.poll]
  by_cases hclosed : w.status = .disconnected
  · rw [if_pos hclosed]
    exact .inr ⟨rfl, fun h => h.1 hclosed⟩
  · rw [if_neg hclosed]
    by_cases hdata : w.data = []
    · rw [if_pos hdata]
      exact .inr ⟨rfl, fun h => h.2 hdata⟩
    · rw [if_neg hdata]
      exact .inl ⟨rfl, hclosed, hdata⟩

/-! ### Steps -/

lemma Room.isDone_of_mem (hr : r ∈ R.rows) :
    R.config.isDone r.conn = true ↔ r.status = .done := by
  rw [Room.isDone_iff]
  constructor
  · rintro ⟨r', hr', hconn, hdone⟩
    rwa [List.eq_of_map_nodup R.nodup_conn hr hr' hconn.symm]
  · exact fun hdone => ⟨r, hr, rfl, hdone⟩

lemma Request.stage_of_not_read (h : ¬ req.Read) (s : AuthStatus) (a : Bytes) :
    req.stage s = s ∧ req.named a = a := by
  cases req <;> first | exact absurd trivial h | exact ⟨rfl, rfl⟩

section Serve

variable {steps : List (System.Step Config Event Obs)} (h : R.Heard L steps)
  (hr : R.rows[i]? = some r) (hreq : R.request L w r = .ok req) {r' : Row}
  (hconn : r'.conn = r.conn) (hstatus : r'.status = req.stage r.status)
  (hid : r'.clientid = req.named r.clientid)
include h hr hreq hconn hstatus hid

/-- A client that logs in. -/
lemma Row.Heard.login {st : System.Step Config Event Obs}
    (hst : st = ⟨R.config, .receive i w, o, R'.config⟩) (hundone : r.status = .undone)
    (hread : req.Read) (hexpels : ¬ R.Expels L r req)
    (hacts : ∀ u p, req = .register u p → .registered u p ∈ o.acts) :
    r'.Heard L (steps ++ [st]) := by
  have hmem := List.mem_of_getElem? hr
  have hfits := Room.request_fits hreq
  have hopen := (Room.request_read_iff hreq).mp hread
  obtain ⟨hdata, -⟩ | ⟨-, hnot⟩ := Room.data_poll hreq
  · have hreads : readsOn r.conn (steps ++ [st]) = [w.data] := by
      rw [readsOn_append, (h.heard r hmem).undone hundone, readsOn_singleton, hst,
        Room.readOn_self hr, hdata]
      rfl
    obtain ⟨u, p, hpres, hproved, hu, hkey⟩ : ∃ u p, Presented L w.data u p ∧
        (Stored L R.userdata u p ∨ .registered u p ∈ o.acts) ∧ req.named r.clientid = u ∧
        req.stage r.status = .keyReceived := by
      cases req with
      | login u =>
        obtain ⟨p, hpres, hstored⟩ := Room.request_login hreq
        exact ⟨u, p, hpres, .inl hstored, rfl, rfl⟩
      | register u p =>
        exact ⟨u, p, (Room.request_register hreq).1, .inr (hacts u p rfl), rfl, rfl⟩
      | garbledLogin | wrongPassword => exact absurd trivial hexpels
      | leave | idle => exact absurd hread not_false
      | spam | key => cases hundone.symm.trans hfits
      | unreadable | illegal | chat | rename | console | command => exact absurd hundone hfits.1
    constructor
    · intro hs
      cases (hs.symm.trans hstatus).trans hkey
    · intro _
      rw [hconn, hreads]
      rfl
    · intro hs
      cases (hs.symm.trans hstatus).trans hkey
    · intro _
      rw [Row.Presents, hconn, hreads]
      refine ⟨w.data, u, p, rfl, hpres,
        ⟨st, List.mem_append_right _ (List.mem_singleton_self _), ?_⟩, .inl (hid.trans hu)⟩
      rw [hst]
      exact ⟨i, w, r, p, rfl, (Room.config_row? R i).trans hr, rfl, hundone, hopen.1, hpres,
        hproved⟩
  · exact absurd hread hnot

/-- A client that has logged in. -/
lemma Row.Heard.proceed (hN : R.Named) {st : System.Step Config Event Obs}
    (hst : st = ⟨R.config, .receive i w, o, R'.config⟩) (hundone : r.status ≠ .undone)
    (hread : req.Read) (hexpels : ¬ R.Expels L r req) : r'.Heard L (steps ++ [st]) := by
  have hmem := List.mem_of_getElem? hr
  have hheard := h.heard r hmem
  have hfits := Room.request_fits hreq
  obtain ⟨hdata, -⟩ | ⟨-, hnot⟩ := Room.data_poll hreq
  · have hon : readOn r.conn st = [w.data] := by
      rw [hst, Room.readOn_self hr, hdata]
    have hreads : readsOn r.conn (steps ++ [st]) = readsOn r.conn steps ++ [w.data] := by
      rw [readsOn_append, readsOn_singleton, hon]
    have hdone : r'.status = .done := by
      rw [hstatus]
      cases req with
      | key => rfl
      | login | register | garbledLogin | wrongPassword => exact absurd hfits hundone
      | leave | idle => exact absurd hread not_false
      | spam => exact hfits
      | unreadable | illegal | chat | rename | console | command =>
        exact (hN.named r hmem).eq_done hfits.1 hfits.2
    have hlength : 2 ≤ (readsOn r.conn steps ++ [w.data]).length := by
      rw [List.length_append, List.length_singleton]
      by_cases hkey : r.status = .keyReceived
      · rw [hheard.keyReceived hkey]
      · have := hheard.done ((hN.named r hmem).eq_done hundone hkey)
        omega
    constructor
    · intro hs
      cases hs.symm.trans hdone
    · intro hs
      cases hs.symm.trans hdone
    · intro _
      rwa [hconn, hreads]
    · intro _
      refine (hheard.named hundone).append hconn ?_
      rw [hid]
      cases req with
      | rename u =>
        have hsdone := (hN.named r hmem).eq_done hfits.1 hfits.2
        obtain ⟨iv, d, hdec, -, -, htag, -⟩ := ((Room.request_rename_iff hsdone).mp hreq).packet
        have hpre : st.pre.isDone r.conn = true := by
          rw [hst]
          exact (Room.isDone_of_mem hmem).mpr hsdone
        rw [packetsOn_singleton, if_pos hpre, hon]
        exact .inr ⟨w.data, List.mem_singleton_self _, d, ⟨iv, hdec⟩, htag⟩
      | login | register => exact absurd hfits hundone
      | _ => exact .inl rfl
  · exact absurd hread hnot

end Serve

/-- What is read after the first two messages of a client is read while it is `Done`. -/
lemma Room.Heard.packets_serve (hN : R.Named) {steps : List (System.Step Config Event Obs)}
    (h : R.Heard L steps) (hr : R.rows[i]? = some r) {st : System.Step Config Event Obs}
    (hst : st = ⟨R.config, .receive i w, o, R'.config⟩) (n : ℕ) :
    (readsOn n (steps ++ [st])).drop 2 = packetsOn n (steps ++ [st]) := by
  rw [readsOn_append, packetsOn_append, readsOn_singleton, packetsOn_singleton, ← h.packets]
  by_cases hn : r.conn = n
  · subst hn
    have hmem := List.mem_of_getElem? hr
    have hpre : st.pre.isDone r.conn = true ↔ r.status = .done := by
      rw [hst]
      exact Room.isDone_of_mem hmem
    by_cases hdone : r.status = .done
    · rw [if_pos (hpre.mpr hdone), List.drop_append_of_le_length ((h.heard r hmem).done hdone)]
    · rw [if_neg fun hs => hdone (hpre.mp hs), List.append_nil]
      have hshort : (readsOn r.conn steps).length ≤ 1 := by
        by_cases hundone : r.status = .undone
        · rw [(h.heard r hmem).undone hundone]
          exact Nat.zero_le _
        · refine ((h.heard r hmem).keyReceived ?_).le
          by_contra hkey
          exact hdone ((hN.named r hmem).eq_done hundone hkey)
      have hone : (readOn r.conn st).length ≤ 1 := by
        rw [hst, Room.readOn_self hr]
        cases w.poll <;> simp [Poll.data]
      have htwo : (readsOn r.conn steps ++ readOn r.conn st).length ≤ 2 := by
        rw [List.length_append]
        omega
      rw [List.drop_of_length_le htwo, List.drop_of_length_le (by omega)]
  · have hnil : readOn n st = [] := by
      rw [hst]
      exact Room.readOn_other hr hn
    rw [hnil, ite_self, List.append_nil, List.append_nil]

lemma Room.Heard.serve (hN : R.Named) {steps : List (System.Step Config Event Obs)}
    (h : R.Heard L steps) (hr : R.rows[i]? = some r) (hserve : R.serve L w i r = .ok q)
    {st : System.Step Config Event Obs}
    (hst : st = ⟨R.config, .receive i w, ⟨q.acts, q.useAfterFree, false⟩, q.room.config⟩) :
    q.room.Heard L (steps ++ [st]) where
  packets := h.packets_serve hN hr hst
  unaccepted := by
    intro n hn
    rw [Room.accepted_of_serve hserve] at hn
    have hlt := R.conn_lt r (List.mem_of_getElem? hr)
    rw [readsOn_append, h.unaccepted n hn, readsOn_singleton, hst, Room.readOn_other hr (by omega)]
    rfl
  heard := by
    obtain ⟨req, hreq, hout⟩ := Room.serve_outcome hserve
    have hother : ∀ r' ∈ R.rows, r' ≠ r → r'.Heard L (steps ++ [st]) := by
      intro r' hr' hne
      have hconn : r.conn ≠ r'.conn := fun hconn => hne
        (List.eq_of_map_nodup R.nodup_conn hr' (List.mem_of_getElem? hr) hconn.symm)
      refine (h.heard r' hr').append_silent ?_ rfl rfl rfl
      rw [readsOn_singleton, hst]
      exact Room.readOn_other hr hconn
    intro r' hr'
    rcases Room.serve_row hreq hserve with ⟨-, herases⟩ | ⟨hexpels, f, hkeeps⟩
    · obtain ⟨hmem, hne⟩ := (herases.mem_rows hr).mp hr'
      exact hother r' hmem hne
    · rcases (hkeeps.changes.mem_rows hr).mp hr' with rfl | ⟨hmem, hne⟩
      · have hconn : (r.update f).conn = r.conn := rfl
        have hid : (r.update f).clientid = req.named r.clientid := hkeeps.clientid r.toProfile
        have hstatus : (r.update f).status = req.stage r.status := hkeeps.status r.toProfile
        by_cases hread : req.Read
        · by_cases hundone : r.status = .undone
          · refine Row.Heard.login h hr hreq hconn hstatus hid hst hundone hread hexpels ?_
            rintro u p rfl
            rcases Room.serve_registers hr hreq hserve with ⟨-, -, hacts⟩ | ⟨hnot, -, -⟩
            · rw [← mem_registrations, hacts]
              exact List.mem_singleton_self _
            · exact absurd (hnot u p rfl) hexpels
          · exact Row.Heard.proceed h hr hreq hconn hstatus hid hN hst hundone hread hexpels
        · obtain ⟨hs, ha⟩ := Request.stage_of_not_read hread r.status r.clientid
          refine (h.heard r (List.mem_of_getElem? hr)).append_silent ?_ hconn
            (hstatus.trans hs) (hid.trans ha)
          rw [readsOn_singleton, hst, Room.readOn_self hr]
          rcases Room.data_poll hreq with ⟨-, hread'⟩ | ⟨hdata, -⟩
          · exact absurd hread' hread
          · exact hdata
      · exact hother r' hmem hne

/-- A step of `connectClients` reads nothing. -/
lemma Room.Heard.accept {steps : List (System.Step Config Event Obs)} (h : R.Heard L steps)
    {st : System.Step Config Event Obs} (hst : ∀ n, readOn n st = [])
    (hle : R.accepted ≤ R'.accepted)
    (hrows : ∀ r ∈ R'.rows, r ∈ R.rows ∨ r.conn = R.accepted ∧ r.status = .undone) :
    R'.Heard L (steps ++ [st]) := by
  have hreads : ∀ n, readsOn n (steps ++ [st]) = readsOn n steps := by
    intro n
    rw [readsOn_append, readsOn_singleton, hst, List.append_nil]
  constructor
  · intro n
    rw [hreads, h.packets, packetsOn_append, packetsOn_singleton, hst, ite_self, List.append_nil]
  · intro n hn
    rw [hreads]
    exact h.unaccepted n (hle.trans hn)
  · intro r hr
    rcases hrows r hr with hr | ⟨hconn, hundone⟩
    · exact (h.heard r hr).append_silent (readsOn_singleton.trans (hst _)) rfl rfl rfl
    · constructor
      · intro _
        rw [hreads]
        exact h.unaccepted _ hconn.ge
      · intro hs
        cases hs.symm.trans hundone
      · intro hs
        cases hs.symm.trans hundone
      · exact fun hs => absurd hundone hs

/-- Along every run the reads of a connection go with its row. -/
theorem Room.heard_of_run {userdata : Bytes} {rsteps : List (System.Step Room Event Obs)}
    (h : (room L).Run (Room.init userdata) rsteps R) :
    R.Heard L (rsteps.map (Step.map Room.config)) := by
  induction h with
  | nil => exact ⟨fun _ => rfl, fun _ _ => rfl, fun r hr => absurd hr List.not_mem_nil⟩
  | @snoc rsteps R R' e o hrun hstep ih =>
    have hN := Room.named_of_reachable hrun.reachable
    rw [List.map_append, List.map_singleton]
    cases hstep with
    | accepted hp hstatus =>
      refine ih.accept (fun n => rfl) (Nat.le_succ _) fun r hr => ?_
      rcases List.mem_append.mp hr with hr | hr
      · exact .inl hr
      · rw [List.mem_singleton.mp hr]
        exact .inr ⟨rfl, rfl⟩
    | declined hp hstatus => exact ih.accept (fun n => rfl) le_rfl fun r hr => .inl hr
    | served hr hserve => exact ih.serve hN hr hserve rfl

/-! ### Clients of the repository -/

lemma Typed.tag {d : Bytes} (h : Typed d) :
    ∃ c ∈ ([48, 52, 53] : Bytes), ∃ text, d = c :: text := by
  rcases h with ⟨uwuify, message, h⟩ | ⟨line, rfl⟩
  · have hsends : Rust.Sends [] (Rust.inserted [] uwuify message) d := Rust.sends_of_sendMessage h
    cases hsends with
    | console => exact ⟨52, by decide, [], rfl⟩
    | command command => exact ⟨53, by decide, Rust.intoBytes command, rfl⟩
    | chat text => exact ⟨48, by decide, Rust.intoBytes text, rfl⟩
  · rw [Cpp.userInput]
    dsimp only
    split_ifs
    all_goals first | exact ⟨53, by decide, _, rfl⟩ | exact ⟨48, by decide, _, rfl⟩

lemma Opens.eq {d d' data : Bytes} (h : Opens L d data) (h' : Opens L d' data) : d = d' := by
  obtain ⟨iv, h⟩ := h
  obtain ⟨iv', h'⟩ := h'
  cases h.symm.trans h'
  rfl

/-- What is read after the first two messages is a packet of what is sent. -/
lemma Follows.exists_opens {uname passwd data : Bytes} {plaintexts reads : List Bytes}
    (h : Follows L uname passwd plaintexts reads) (hdata : data ∈ reads.drop 2) :
    ∃ d ∈ plaintexts, Opens L d data := by
  obtain ⟨packets, hopens, hinit⟩ := h.packets
  exact List.exists_mem_of_forall₂ hopens (hinit.subset hdata)

/-- A client whose packets ask for no other alias has that of its credentials. -/
lemma Room.Heard.clientid_eq {steps : List (System.Step Config Event Obs)} (h : R.Heard L steps)
    (hr : r ∈ R.rows) (hundone : r.status ≠ .undone) {uname passwd : Bytes}
    {plaintexts : List Bytes} (hu : separator ∉ uname)
    (hfollows : Follows L uname passwd plaintexts (readsOn r.conn steps))
    (htyped : ∀ d ∈ plaintexts, Typed d) :
    r.clientid = uname ∧ ∃ st ∈ steps, Proves L st r.conn uname := by
  obtain ⟨login, u, p, hlogin, ⟨decstr, hdec, hname, -⟩, hproves, hid⟩ :=
    (h.heard r hr).named hundone
  have hcredits := Option.some.inj (hdec.symm.trans (hfollows.head _ hlogin))
  have huname : u = uname := by
    rw [← hname, hcredits, uname_credentials, credits, List.append_assoc, username_append hu]
  subst huname
  refine ⟨hid.resolve_right ?_, hproves⟩
  rintro ⟨data, hdata, d, hopens, htag⟩
  rw [← h.packets] at hdata
  obtain ⟨d', hd', hopens'⟩ := hfollows.exists_opens hdata
  obtain ⟨c, hc, text, hd⟩ := (htyped d' hd').tag
  obtain ⟨text', htag⟩ := startsWith_iff.mp htag
  rw [hopens'.eq hopens, htag] at hd
  rw [← (List.cons.inj hd).1] at hc
  exact absurd hc (by decide)

/-- A client of the repository has the name that it logged in with, which it has proved, and shares
it with nobody, whatever the other clients send. The name must not have a separator: the server ends
it there. -/
theorem name_kept (L : Library) (userdata : Bytes) {steps : List (System.Step Config Event Obs)}
    {c : Config} (h : (server L).Run (Config.init userdata) steps c) {uname passwd : Bytes}
    {plaintexts : List Bytes} (hu : separator ∉ uname)
    (hfollows : Follows L uname passwd plaintexts (readsOn n steps))
    (htyped : ∀ d ∈ plaintexts, Typed d) {k : ℕ} (hr : c.row? k = some r) (hconn : r.conn = n)
    (hundone : r.status ≠ .undone) :
    r.clientid = uname ∧ (∃ st ∈ steps, Proves L st n uname) ∧
      ∀ k' r', c.row? k' = some r' → r'.clientid = uname → k' = k := by
  obtain ⟨rsteps, R, hrun, rfl, rfl⟩ := run_lift h
  have hN := Room.named_of_reachable hrun.reachable
  rw [Room.config_row?] at hr
  have hmem := List.mem_of_getElem? hr
  subst hconn
  obtain ⟨hclientid, hproves⟩ :=
    (Room.heard_of_run hrun).clientid_eq hmem hundone hu hfollows htyped
  refine ⟨hclientid, hproves, ?_⟩
  intro k' r' hr' hid'
  rw [Room.config_row?] at hr'
  have hne : r.clientid ≠ sentinel := fun hs => hundone ((hN.named r hmem).undone_iff.mpr hs)
  have heq := hN.unique r hmem r' (List.mem_of_getElem? hr') (hclientid.trans hid'.symm) hne
  exact List.index_eq_of_map_nodup R.nodup_sock hr' hr (heq ▸ rfl)

lemma Toy.typed_hi : Typed (ascii "0hi") := .inl ⟨false, "hi".toList, by decide⟩

/-- Carol logs in and types a message. -/
lemma Toy.follows_carolChats : Follows toy (ascii "carol") (ascii "pw") [ascii "0hi"]
    [logsIn (ascii "carol") (ascii "pw"), modulus, seals (ascii "0hi")] :=
  ⟨fun login hlogin => by cases hlogin; decide,
    [seals (ascii "0hi")], .cons ⟨_, decrypt_seals _⟩ .nil, List.prefix_rfl⟩

theorem name_kept_toy :
    ∃ steps c r, play toy (Config.init []) Toy.carolChats = some (steps, c) ∧
      c.row? 2 = some r ∧ (r.clientid = ascii "carol" ∧
        (∃ st ∈ steps, Proves toy st 2 (ascii "carol")) ∧
        ∀ k' r', c.row? k' = some r' → r'.clientid = ascii "carol" → k' = 2) := by
  have hsome : (play toy (Config.init []) Toy.carolChats).bind (fun x => (x.2.row? 2).map fun r =>
      (r.conn, r.status, readsOn 2 x.1)) =
      some (2, .done, [Toy.logsIn (ascii "carol") (ascii "pw"), Toy.modulus,
        Toy.seals (ascii "0hi")]) := by decide +kernel
  obtain ⟨⟨steps, c⟩, hplay, hrest⟩ := Option.bind_eq_some_iff.mp hsome
  obtain ⟨r, hr, heq⟩ := Option.map_eq_some_iff.mp hrest
  simp only [Prod.mk.injEq] at heq
  obtain ⟨hconn, hstatus, hreads⟩ := heq
  refine ⟨steps, c, r, hplay, hr, ?_⟩
  refine name_kept toy [] (run_of_play hplay) (by decide) (hreads ▸ Toy.follows_carolChats) ?_ hr
    hconn (by simp [hstatus])
  intro d hd
  rw [List.mem_singleton.mp hd]
  exact Toy.typed_hi

/-! ### Who is disconnected -/

/-- The row of a client that is polled is there afterwards unless the room expels the client. -/
lemma Room.isDone_serve_self (hr : R.rows[i]? = some r) (hdone : r.status = .done)
    (hreq : R.request L w r = .ok req) (hserve : R.serve L w i r = .ok q) :
    q.room.config.isDone r.conn = true ↔ ¬ R.Expels L r req := by
  rcases Room.serve_row hreq hserve with ⟨hexpels, herases⟩ | ⟨hexpels, f, hkeeps⟩
  · refine iff_of_false ?_ (not_not.mpr hexpels)
    rw [Room.isDone_iff]
    rintro ⟨r', hr', hconn, -⟩
    obtain ⟨hmem, hne⟩ := (herases.mem_rows hr).mp hr'
    exact hne (List.eq_of_map_nodup R.nodup_conn hmem (List.mem_of_getElem? hr) hconn)
  · refine iff_of_true ?_ hexpels
    have hfits := Room.request_fits hreq
    have hmem : r.update f ∈ q.room.rows := (hkeeps.changes.mem_rows hr).mpr (.inl rfl)
    have hstatus : (r.update f).status = req.stage r.status := hkeeps.status r.toProfile
    refine (Room.isDone_of_mem hmem).mpr ?_
    rw [hstatus, hdone]
    cases req with
    | login | register => cases hdone.symm.trans hfits
    | _ => rfl

lemma Room.expels_of_typed {d : Bytes} (hN : R.Named) (hr : r ∈ R.rows) (hdone : r.status = .done)
    (h : Typed d) : R.Expels L r (requestOfPlaintext d) ↔
      ¬ Admissible d ∨ ∃ text, d = 48 :: text ∧ isBlank (cstr text) = true := by
  have hsentinel : r.clientid ≠ sentinel := by
    intro hs
    cases hdone.symm.trans ((hN.named r hr).undone_iff.mpr hs)
  by_cases hadm : Admissible d
  · obtain ⟨c, hc, text, rfl⟩ := h.tag
    simp only [List.mem_cons, List.not_mem_nil, or_false] at hc
    rcases hc with rfl | rfl | rfl
    · rw [requestOfPlaintext_of_chat hadm, Room.Expels]
      constructor
      · exact fun hexpels => .inr ⟨text, rfl, hexpels.resolve_right hsentinel⟩
      · rintro (hnot | ⟨text', heq, hblank⟩)
        · exact absurd hadm hnot
        · cases heq
          exact .inl hblank
    · have hconsole : requestOfPlaintext (52 :: text) = .console := by
        rw [requestOfPlaintext, if_neg (not_not.mpr hadm.check), if_neg (not_le.mpr hadm.length_lt)]
        rfl
      rw [hconsole]
      refine iff_of_false not_false ?_
      rintro (hnot | ⟨text', heq, -⟩)
      · exact hnot hadm
      · cases heq
    · rw [requestOfPlaintext_of_command hadm]
      refine iff_of_false not_false ?_
      rintro (hnot | ⟨text', heq, -⟩)
      · exact hnot hadm
      · cases heq
  · rw [requestOfPlaintext_of_not_admissible hadm]
    exact iff_of_true trivial (.inl hadm)

/-- A `Done` client of the repository is expelled exactly if it quits. -/
lemma Room.expels_iff_quits (hN : R.Named) (hr : r ∈ R.rows) (hdone : r.status = .done)
    (hreq : R.request L w r = .ok req)
    (htyped : w.status ≠ .disconnected → ∀ d, Opens L d w.data → Typed d) :
    R.Expels L r req ↔ Quits L w r := by
  rw [Quits]
  by_cases hclosed : w.status = .disconnected
  · rw [Room.request, if_pos hclosed] at hreq
    cases hreq
    exact iff_of_true trivial (.inl hclosed)
  · by_cases hdata : w.data = []
    · rw [Room.request, if_neg hclosed, if_pos hdata] at hreq
      cases hreq
      exact iff_of_false not_false fun h => h.elim hclosed fun h => h.1 hdata
    · by_cases hspam : asMilliseconds (w.now - r.interval) ≤ 20
      · rw [Room.request_of_data hclosed hdata, if_pos ⟨hdone, hspam⟩] at hreq
        cases hreq
        exact iff_of_true trivial (.inr ⟨hdata, .inl hspam⟩)
      · rw [Room.request_eq_plaintext hdone hclosed hdata hspam, ServerNetwork.plaintext] at hreq
        rcases hdec : Cryptography.decrypt L w.data serverKey with fault | ⟨iv, d⟩
        · rw [hdec] at hreq
          cases fault <;> cases hreq
          refine iff_of_false not_false ?_
          rintro (h | ⟨-, h | ⟨d, ⟨iv, hd⟩, -⟩⟩)
          · exact hclosed h
          · exact hspam h
          · cases hdec.symm.trans hd
        · have hopens : Opens L d w.data := ⟨iv, hdec⟩
          rw [hdec] at hreq
          cases hreq
          rw [Room.expels_of_typed hN hr hdone (htyped hclosed d hopens)]
          constructor
          · exact fun h => .inr ⟨hdata, .inr ⟨d, hopens, h⟩⟩
          · rintro (h | ⟨-, h | ⟨d', hopens', h⟩⟩)
            · exact absurd h hclosed
            · exact absurd h hspam
            · rwa [hopens'.eq hopens] at h

/-- What a packet of a `Done` client opens to is one of the client's plaintexts. -/
lemma Follows.mem_of_opens {userdata : Bytes} {rsteps : List (System.Step Room Event Obs)}
    {S S' : Room} (hrun : (room L).Run (Room.init userdata) rsteps R) {uname passwd d : Bytes}
    {plaintexts : List Bytes} (h : Follows L uname passwd plaintexts
      (readsOn r.conn (rsteps.map (Step.map Room.config))))
    (hst : ⟨S, .receive i w, o, S'⟩ ∈ rsteps) (hr : S.rows[i]? = some r) (hdone : r.status = .done)
    (hopen : w.status ≠ .disconnected) (hopens : Opens L d w.data) : d ∈ plaintexts := by
  obtain ⟨iv, hdec⟩ := hopens
  have hne := ne_nil_of_decrypt hdec
  have hread : w.data ∈ readOn r.conn (System.Step.map Room.config ⟨S, .receive i w, o, S'⟩) := by
    have hpoll : w.poll.data = [w.data] := by
      rw [World.poll, if_neg hopen, if_neg hne]
      rfl
    exact (Room.readOn_self hr).trans hpoll ▸ List.mem_singleton_self _
  have hin : w.data ∈ packetsOn r.conn (rsteps.map (Step.map Room.config)) := by
    refine List.mem_flatMap.mpr ⟨_, List.mem_filter.mpr ⟨List.mem_map_of_mem hst, ?_⟩, hread⟩
    exact (Room.isDone_of_mem (List.mem_of_getElem? hr)).mpr hdone
  rw [← (Room.heard_of_run hrun).packets] at hin
  obtain ⟨d', hd', hopens'⟩ := h.exists_opens hin
  exact hopens'.eq ⟨iv, hdec⟩ ▸ hd'

/-- A `Done` client is there after a step unless the step is a poll for which it quits. -/
lemma Room.Step.isDone_iff_not_quits (hN : R.Named) (h : Room.Step L R e o R')
    (hdone : R.config.isDone n = true)
    (htyped : ∀ i w r, e = .receive i w → R.rows[i]? = some r → r.conn = n →
      w.status ≠ .disconnected → ∀ d, Opens L d w.data → Typed d) :
    R'.config.isDone n = true ↔ ¬ e.Quits L n R.config := by
  cases h with
  | accepted hp hstatus =>
    rw [Room.isDone_connect]
    exact iff_of_true hdone not_false
  | declined hp hstatus => exact iff_of_true hdone not_false
  | @served i w r q hr hserve =>
    have hquits : (Event.receive i w).Quits L n R.config ↔ r.conn = n ∧ Quits L w r := by
      constructor
      · rintro ⟨r', hr', hconn, hquits⟩
        rw [Room.config_row?] at hr'
        cases hr.symm.trans hr'
        exact ⟨hconn, hquits⟩
      · exact fun h => ⟨r, (Room.config_row? _ _).trans hr, h⟩
    rw [hquits]
    by_cases hconn : r.conn = n
    · subst hconn
      obtain ⟨req, hreq, -⟩ := Room.serve_outcome hserve
      have hmem := List.mem_of_getElem? hr
      have hstatus := (Room.isDone_of_mem hmem).mp hdone
      rw [Room.isDone_serve_self hr hstatus hreq hserve,
        Room.expels_iff_quits hN hmem hstatus hreq (htyped i w r rfl hr rfl)]
      exact not_congr (iff_and_self.mpr fun _ => rfl)
    · rw [Room.isDone_serve hr hserve (Ne.symm hconn)]
      exact iff_of_true hdone fun h => hconn h.1

/-- Whatever the others send, a `Done` client of the repository is disconnected in a step exactly if
the step is a poll of this client for which it quits: the server finds that it has hung up, reads
bytes from it at most 20 ms after the last restart of the client's clock, which is restarted when
the server reads a packet and not when the client sends it, or reads a packet with a separator, a
packet that is too long, or a blank message. -/
theorem disconnected_iff_quits (L : Library) (userdata : Bytes)
    {steps : List (System.Step Config Event Obs)} {c : Config}
    (h : (server L).Run (Config.init userdata) steps c) {uname passwd : Bytes}
    {plaintexts : List Bytes} (hfollows : Follows L uname passwd plaintexts (readsOn n steps))
    (htyped : ∀ d ∈ plaintexts, Typed d) {st : System.Step Config Event Obs} (hst : st ∈ steps)
    (hdone : st.pre.isDone n = true) :
    st.post.isDone n = false ↔ st.event.Quits L n st.pre := by
  obtain ⟨rsteps, R, hrun, rfl, rfl⟩ := run_lift h
  obtain ⟨st, hmem, rfl⟩ := List.mem_map.mp hst
  obtain ⟨hreach, hstep⟩ := hrun.of_mem hmem
  obtain ⟨S, e, o, S'⟩ := st
  have hrstep : Room.Step L S e o S' := hstep
  have hN := Room.named_of_reachable hreach
  rw [← Bool.not_eq_true, ← not_iff_not, not_not]
  refine hrstep.isDone_iff_not_quits hN hdone ?_
  rintro i w r rfl hr rfl hopen d hopens
  have hstatus := (Room.isDone_of_mem (List.mem_of_getElem? hr)).mp hdone
  exact htyped d (hfollows.mem_of_opens hrun hmem hr hstatus hopen hopens)

/-- Carol is not disconnected for her message. -/
theorem disconnected_iff_quits_toy :
    ∃ steps c st, play toy (Config.init []) Toy.carolChats = some (steps, c) ∧ st ∈ steps ∧
      st.event = Toy.polls 2 (Toy.seals (ascii "0hi")) 1000 ∧ st.post.isDone 2 = true ∧
      (st.post.isDone 2 = false ↔ st.event.Quits toy 2 st.pre) := by
  have hsome : (play toy (Config.init []) Toy.carolChats).bind (fun x => x.1.getLast?.map fun st =>
      (readsOn 2 x.1, st.pre.isDone 2, st.post.isDone 2)) =
      some ([Toy.logsIn (ascii "carol") (ascii "pw"), Toy.modulus, Toy.seals (ascii "0hi")],
        true, true) := by decide +kernel
  obtain ⟨⟨steps, c⟩, hplay, hrest⟩ := Option.bind_eq_some_iff.mp hsome
  obtain ⟨st, hlast, heq⟩ := Option.map_eq_some_iff.mp hrest
  simp only [Prod.mk.injEq] at heq
  obtain ⟨hreads, hdone, hstays⟩ := heq
  have hst : st ∈ steps := List.mem_of_getLast? hlast
  have hevents := congrArg List.getLast? (map_event_of_play hplay)
  rw [List.getLast?_map, hlast] at hevents
  refine ⟨steps, c, st, hplay, hst, Option.some.inj hevents, hstays, ?_⟩
  refine disconnected_iff_quits toy [] (run_of_play hplay) (hreads ▸ Toy.follows_carolChats) ?_ hst
    hdone
  intro d hd
  rw [List.mem_singleton.mp hd]
  exact Toy.typed_hi

end OpenSimp
