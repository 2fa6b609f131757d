import OpenSimp.Room.Emission
import OpenSimp.Room.Names
import OpenSimp.Toy.Library

/-!
# The table of session keys

The server inserts a client's key before it encrypts with it, and a client that is disconnected
because the encryption failed leaves its key behind, which is stale from then on: the next client
with this socket does not get past it. As long as no client sends such a key, the table has exactly
the keys of the `Done` clients, each the one its client sent.
-/

namespace OpenSimp

open Bytes System ServerNetwork

variable {R R' : Room} {L : Library} {w : World} {i : ℕ} {r : Row} {req : Request} {q : Reply}

/-- The poll of the row `r` reads the public key `n`. -/
def KeyMessage (L : Library) (w : World) (r : Row) (n : ℤ) : Prop :=
  r.status = .keyReceived ∧ w.status ≠ .disconnected ∧ w.data ≠ [] ∧
    ∃ text, ofBuffer maxRawData w.data = some text ∧ L.bigInt text = some n ∧
      L.rsaPublicKey n = true

lemma Room.request_key_iff {n : ℤ} : R.request L w r = .ok (.key n) ↔ KeyMessage L w r n := by
  constructor
  · intro h
    have hkey : r.status = .keyReceived := Room.request_fits h
    rw [Room.request] at h
    split_ifs at h with hclosed hdata hspam
    · cases h
    · cases h
    · cases h
    · rw [Room.requestOfData, if_neg (by simp [hkey]), if_pos hkey] at h
      obtain ⟨text, n', htext, hn, hpub, hreq⟩ := requestOfKey_eq_ok h
      cases hreq
      exact ⟨hkey, hclosed, hdata, text, htext, hn, hpub⟩
  · rintro ⟨hkey, hclosed, hdata, text, htext, hn, hpub⟩
    rw [Room.request, if_neg hclosed, if_neg hdata, if_neg (by simp [hkey]), Room.requestOfData,
      if_neg (by simp [hkey]), if_pos hkey, requestOfKey, htext]
    simp only [hn, hpub, if_true]

/-! ### Sockets of `Done` clients -/

lemma Room.doneOn_modify (hr : R.rows[i]? = some r) {f : Profile → Profile}
    (hrows : R'.rows = R.rows.modify i (Row.update f)) (p : Sock) :
    R'.DoneOn p ↔ (p = r.sock ∧ (f r.toProfile).status = .done) ∨ (p ≠ r.sock ∧ R.DoneOn p) := by
  simp only [Room.DoneOn, hrows, List.mem_modify_iff_of_map_nodup R.nodup_sock hr]
  constructor
  · rintro ⟨r', rfl | ⟨hmem, hne⟩, hsock, hdone⟩
    · exact .inl ⟨hsock.symm, hdone⟩
    · exact .inr ⟨hsock ▸ hne, r', hmem, hsock, hdone⟩
  · rintro (⟨rfl, hdone⟩ | ⟨hne, r', hmem, hsock, hdone⟩)
    · exact ⟨r.update f, .inl rfl, rfl, hdone⟩
    · exact ⟨r', .inr ⟨hmem, hsock ▸ hne⟩, hsock, hdone⟩

/-- Changing a row without making its client `Done` or not `Done`. -/
lemma Room.doneOn_modify_of_iff (hr : R.rows[i]? = some r) {f : Profile → Profile}
    (hrows : R'.rows = R.rows.modify i (Row.update f))
    (hdone : (f r.toProfile).status = .done ↔ r.status = .done) (p : Sock) :
    R'.DoneOn p ↔ R.DoneOn p := by
  rw [Room.doneOn_modify hr hrows, hdone, ← Room.doneOn_self hr]
  constructor
  · rintro (⟨rfl, h⟩ | ⟨-, h⟩)
    · exact h
    · exact h
  · intro h
    by_cases hp : p = r.sock
    · exact .inl ⟨hp, hp ▸ h⟩
    · exact .inr ⟨hp, h⟩

lemma Room.doneOn_erase (hr : R.rows[i]? = some r) (hrows : R'.rows = R.rows.eraseIdx i)
    (p : Sock) : R'.DoneOn p ↔ p ≠ r.sock ∧ R.DoneOn p := by
  have hnodup : R.rows.Nodup := R.nodup_sock.of_map
  simp only [Room.DoneOn, hrows, List.mem_eraseIdx_iff_of_nodup hnodup hr]
  constructor
  · rintro ⟨r', ⟨hmem, hne⟩, rfl, hdone⟩
    refine ⟨fun hsock => hne ?_, r', hmem, rfl, hdone⟩
    exact List.eq_of_map_nodup R.nodup_sock hmem (List.mem_of_getElem? hr) hsock
  · rintro ⟨hne, r', hmem, rfl, hdone⟩
    exact ⟨r', ⟨hmem, fun heq => hne (heq ▸ rfl)⟩, rfl, hdone⟩

/-! ### The table -/

/-- The table has the sockets of the `Done` clients. -/
def Room.KeysExact (R : Room) : Prop := ∀ p, (R.keys p).isSome ↔ R.DoneOn p

lemma Room.KeysExact.keys_eq_none (h : R.KeysExact) (hr : R.rows[i]? = some r)
    (hdone : r.status ≠ .done) : R.keys r.sock = none := by
  rw [← Option.not_isSome_iff_eq_none, h r.sock, Room.doneOn_self hr]
  exact hdone

/-- A key that is inserted for a client without one is the client's. -/
lemma Room.KeysExact.insertKey_self (h : R.KeysExact) (hr : R.rows[i]? = some r)
    (hdone : r.status ≠ .done) (n : ℤ) : (R.insertKey r.sock n).keys r.sock = some n := by
  simp only [Room.insertKey, if_true, h.keys_eq_none hr hdone, Option.none_or]

lemma Room.insertKey_of_ne {p p' : Sock} (hp : p' ≠ p) (n : ℤ) :
    (R.insertKey p n).keys p' = R.keys p' := if_neg hp

/-- A key that is there is kept. -/
lemma Room.keys_insertKey_of_some {p p' : Sock} {m n : ℤ} (hn : R.keys p' = some n) :
    (R.insertKey p m).keys p' = some n := by
  by_cases hp : p' = p
  · subst hp
    simp only [Room.insertKey, if_true, hn, Option.some_or]
  · rw [Room.insertKey_of_ne hp, hn]

lemma Room.keys_disconnect_of_ne {p : Sock} (hp : p ≠ r.sock) :
    (R.disconnect i r).keys p = R.keys p := by
  rw [Room.disconnect]
  by_cases hdone : r.status = .done
  · simp [hdone, hp]
  · simp [hdone]

lemma Room.sock_ne (hr : R.rows[i]? = some r) {r' : Row} (hr' : r' ∈ R.rows) (hne : r' ≠ r) :
    r'.sock ≠ r.sock :=
  fun hsock => hne (List.eq_of_map_nodup R.nodup_sock hr' (List.mem_of_getElem? hr) hsock)

/-- The encryption under every key the poll may read succeeds. -/
def Usable (L : Library) (w : World) (r : Row) : Prop :=
  ∀ n, KeyMessage L w r n → (L.rsaEncrypt n serverKey).isSome

/-- A poll whose key is usable leaves the table exact. -/
lemma Room.KeysExact.serve (h : R.KeysExact) (hr : R.rows[i]? = some r) (husable : Usable L w r)
    (hserve : R.serve L w i r = .ok q) : q.room.KeysExact := by
  intro p
  obtain ⟨req, hreq, hout⟩ := Room.serve_outcome hserve
  have hfits := Room.request_fits hreq
  cases hout with
  | quiet hc hf hkeys | renamed hc _ hf hkeys =>
    rw [hkeys, h p, Room.doneOn_modify_of_iff hr hc.rows]
    rw [(hf r.toProfile).2]
  | loggedIn hc _ hf hkeys | registered hc _ hf hkeys =>
    have hundone : r.status = .undone := hfits
    rw [hkeys, h p, Room.doneOn_modify_of_iff hr hc.rows]
    simp [(hf r.toProfile).2, hundone]
  | keyed hc hf hkeys =>
    have hdone : r.status ≠ .done := fun hs => by cases hs.symm.trans hfits
    rw [hkeys, Room.doneOn_modify hr hc.rows, (hf r.toProfile).2]
    by_cases hp : p = r.sock
    · subst hp
      simp [h.insertKey_self hr hdone]
    · rw [Room.insertKey_of_ne hp, h p]
      simp [hp]
  | refusedKey hc hct =>
    -- the key was read from an empty entry, so its encryption succeeds
    have hdone : r.status ≠ .done := fun hs => by cases hs.symm.trans hfits
    have hsome := husable _ (Room.request_key_iff.mp hreq)
    rw [h.insertKey_self hr hdone, Option.bind_some] at hct
    rw [hct] at hsome
    cases hsome
  | dropped hc _ hkeys =>
    rw [hkeys, Room.doneOn_erase hr hc.rows, Room.disconnect]
    by_cases hdone : r.status = .done
    · by_cases hp : p = r.sock
      · simp [hdone, hp]
      · simp [hdone, hp, h p]
    · have hne : R.DoneOn p → p ≠ r.sock := by
        rintro hp rfl
        exact hdone ((Room.doneOn_self hr).mp hp)
      simp only [hdone, if_false, h p]
      exact ⟨fun hp => ⟨hne hp, hp⟩, fun hp => hp.2⟩

lemma Room.doneOn_connect {p : Sock} (now : ℕ) (hp : R.live p = false) (p' : Sock) :
    (R.connect p now hp).DoneOn p' ↔ R.DoneOn p' := by
  constructor
  · rintro ⟨r, hr, hsock, hdone⟩
    rcases List.mem_append.mp hr with hr | hr
    · exact ⟨r, hr, hsock, hdone⟩
    · rw [List.mem_singleton.mp hr] at hdone
      cases hdone
  · rintro ⟨r, hr, hsock, hdone⟩
    exact ⟨r, List.mem_append_left _ hr, hsock, hdone⟩

lemma Room.KeysExact.connect (h : R.KeysExact) {p : Sock} (now : ℕ) (hp : R.live p = false) :
    (R.connect p now hp).KeysExact := by
  intro p'
  rw [Room.doneOn_connect now hp]
  exact h p'

/-! ### Stale keys -/

/-- There is a key of nobody who is `Done`, and the server key cannot be encrypted under it. -/
def Room.Stale (L : Library) (R : Room) : Prop :=
  ∃ p n, R.keys p = some n ∧ L.rsaEncrypt n serverKey = none ∧ ¬ R.DoneOn p

lemma Room.Stale.not_keysExact (h : R.Stale L) : ¬ R.KeysExact := by
  obtain ⟨p, n, hn, -, haway⟩ := h
  intro hexact
  exact haway ((hexact p).mp (by rw [hn]; rfl))

/-- A key that is not usable stays when its client is disconnected. -/
lemma Room.KeysExact.stale (h : R.KeysExact) (hr : R.rows[i]? = some r) {n : ℤ}
    (hkey : KeyMessage L w r n) (hspent : L.rsaEncrypt n serverKey = none)
    (hserve : R.serve L w i r = .ok q) : q.room.Stale L := by
  have hreq : R.request L w r = .ok (.key n) := Room.request_key_iff.mpr hkey
  have hdone : r.status ≠ .done := fun hs => by cases hs.symm.trans hkey.1
  have hn := h.insertKey_self hr hdone n
  rw [Room.serve_of_ne_done hdone hreq, Room.respond, hn, Option.bind_some, hspent] at hserve
  cases hserve
  refine ⟨r.sock, n, ?_, hspent, ?_⟩
  · show ((R.insertKey r.sock n).disconnect i r).keys r.sock = some n
    rw [Room.disconnect, if_neg hdone]
    exact hn
  · rw [Room.doneOn_erase (R := R) hr rfl]
    exact fun haway => haway.1 rfl

/-- Nothing cures a stale key: the key of another client with its socket is not inserted, and such a
client is disconnected. -/
lemma Room.Stale.serve (h : R.Stale L) (hr : R.rows[i]? = some r)
    (hserve : R.serve L w i r = .ok q) : q.room.Stale L := by
  obtain ⟨p, n, hn, hspent, haway⟩ := h
  obtain ⟨req, hreq, hout⟩ := Room.serve_outcome hserve
  have hfits := Room.request_fits hreq
  refine ⟨p, n, ?_, hspent, ?_⟩
  · cases hout with
    | quiet _ _ hkeys | renamed _ _ _ hkeys | loggedIn _ _ _ hkeys | registered _ _ _ hkeys =>
      rw [hkeys, hn]
    | keyed _ _ hkeys => rw [hkeys, Room.keys_insertKey_of_some hn]
    | refusedKey _ _ hkeys =>
      have hdone : r.status ≠ .done := fun hs => by cases hs.symm.trans hfits
      rw [hkeys, Room.disconnect, if_neg hdone]
      exact Room.keys_insertKey_of_some hn
    | dropped _ _ hkeys =>
      by_cases hdone : r.status = .done
      · have hne : p ≠ r.sock := by
          rintro rfl
          exact haway ((Room.doneOn_self hr).mpr hdone)
        rw [hkeys, Room.keys_disconnect_of_ne hne, hn]
      · rw [hkeys, Room.disconnect, if_neg hdone, hn]
  · cases hout with
    | quiet hc hf | renamed hc _ hf =>
      rwa [Room.doneOn_modify_of_iff hr hc.rows (by rw [(hf r.toProfile).2])]
    | loggedIn hc _ hf | registered hc _ hf =>
      have hundone : r.status = .undone := hfits
      rwa [Room.doneOn_modify_of_iff hr hc.rows (by simp [(hf r.toProfile).2, hundone])]
    | keyed hc hf _ _ hct =>
      -- the server key has been encrypted, so the polled client is another one
      rw [Room.doneOn_modify hr hc.rows]
      rintro (⟨rfl, -⟩ | ⟨-, hdone⟩)
      · rw [Room.keys_insertKey_of_some hn, Option.bind_some, hspent] at hct
        cases hct
      · exact haway hdone
    | refusedKey hc | dropped hc =>
      rw [Room.doneOn_erase hr hc.rows]
      exact fun hdone => haway hdone.2

lemma Room.Stale.step {e : Event} {o : Obs} (h : R.Stale L) (hstep : Room.Step L R e o R') :
    R'.Stale L := by
  cases hstep with
  | @accepted p w hp hstatus =>
    obtain ⟨p', n, hn, hspent, haway⟩ := h
    exact ⟨p', n, hn, hspent, (Room.doneOn_connect w.now hp p').not.mpr haway⟩
  | declined => exact h
  | served hr hserve => exact h.serve hr hserve

/-! ### Whose keys they are -/

/-- The step reads the public key `n` from the connection `conn`. -/
def Room.ReadsKey (L : Library) (st : System.Step Room Event Obs) (conn : ℕ) (n : ℤ) : Prop :=
  ∃ i w r, st.event = .receive i w ∧ st.pre.rows[i]? = some r ∧ r.conn = conn ∧ KeyMessage L w r n

/-- Every `Done` client has the key it sent in a step of the run. -/
def Room.KeysOwned (L : Library) (R : Room) (steps : List (System.Step Room Event Obs)) : Prop :=
  ∀ r ∈ R.rows, r.status = .done →
    ∃ n, R.keys r.sock = some n ∧ ∃ st ∈ steps, Room.ReadsKey L st r.conn n

/-- Every key a step of the run can read is usable. -/
def Room.AllUsable (L : Library) (st : System.Step Room Event Obs) : Prop :=
  ∀ i w r, st.event = .receive i w → st.pre.rows[i]? = some r → Usable L w r

lemma Room.KeysOwned.serve {steps : List (System.Step Room Event Obs)} {o : Obs}
    (howned : R.KeysOwned L steps) (h : R.KeysExact) (hr : R.rows[i]? = some r)
    (hserve : R.serve L w i r = .ok q) :
    q.room.KeysOwned L (steps ++ [⟨R, .receive i w, o, q.room⟩]) := by
  have hmem := List.mem_of_getElem? hr
  have hold : ∀ r' ∈ R.rows, q.room.keys r'.sock = R.keys r'.sock → r'.status = .done →
      ∃ n, q.room.keys r'.sock = some n ∧
        ∃ st ∈ steps ++ [⟨R, .receive i w, o, q.room⟩], Room.ReadsKey L st r'.conn n := by
    intro r' hr' hkeys hdone
    obtain ⟨n, hn, st, hst, hreads⟩ := howned r' hr' hdone
    exact ⟨n, hkeys.trans hn, st, List.mem_append_left _ hst, hreads⟩
  obtain ⟨req, hreq, hout⟩ := Room.serve_outcome hserve
  have hfits := Room.request_fits hreq
  intro r' hr' hdone'
  cases hout with
  | quiet hc hf hkeys | renamed hc _ hf hkeys =>
    rcases (hc.mem_rows hr).mp hr' with rfl | ⟨hr', -⟩
    · have hdone : r.status = .done := (hf r.toProfile).2.symm.trans hdone'
      exact hold r hmem (by rw [hkeys]) hdone
    · exact hold r' hr' (by rw [hkeys]) hdone'
  | loggedIn hc _ hf hkeys | registered hc _ hf hkeys =>
    rcases (hc.mem_rows hr).mp hr' with rfl | ⟨hr', -⟩
    · cases (hf r.toProfile).2.symm.trans hdone'
    · exact hold r' hr' (by rw [hkeys]) hdone'
  | keyed hc hf hkeys =>
    have hdone : r.status ≠ .done := fun hs => by cases hs.symm.trans hfits
    rcases (hc.mem_rows hr).mp hr' with rfl | ⟨hr', hne⟩
    · refine ⟨_, ?_, _, List.mem_append_right _ (List.mem_singleton_self _), i, w, r, rfl, hr, rfl,
        Room.request_key_iff.mp hreq⟩
      rw [hkeys]
      exact h.insertKey_self hr hdone _
    · exact hold r' hr' (by rw [hkeys, Room.insertKey_of_ne (Room.sock_ne hr hr' hne)]) hdone'
  | refusedKey hc _ hkeys =>
    rw [hc.mem_rows hr] at hr'
    have hne := Room.sock_ne hr hr'.1 hr'.2
    apply hold r' hr'.1 _ hdone'
    rw [hkeys, Room.keys_disconnect_of_ne hne, Room.insertKey_of_ne hne]
  | dropped hc _ hkeys =>
    rw [hc.mem_rows hr] at hr'
    have hne := Room.sock_ne hr hr'.1 hr'.2
    apply hold r' hr'.1 _ hdone'
    rw [hkeys, Room.keys_disconnect_of_ne hne]

/-- Along a run that only reads usable keys the table is exact and everybody's key is its own. -/
lemma Room.keys_of_run {steps : List (System.Step Room Event Obs)} {userdata : Bytes}
    (h : (room L).Run (Room.init userdata) steps R) (husable : ∀ st ∈ steps, Room.AllUsable L st) :
    R.KeysExact ∧ R.KeysOwned L steps := by
  induction h with
  | nil =>
    constructor
    · intro p
      simp [Room.init, Room.DoneOn]
    · intro r hr
      cases hr
  | snoc hrun hstep ih =>
    obtain ⟨hexact, howned⟩ := ih fun st hst => husable st (List.mem_append_left _ hst)
    have hlast := husable _ (List.mem_append_right _ (List.mem_singleton_self _))
    cases hstep with
    | accepted hp hstatus =>
      refine ⟨hexact.connect _ hp, fun r hr hdone => ?_⟩
      rcases List.mem_append.mp hr with hr | hr
      · obtain ⟨n, hn, st, hst, hreads⟩ := howned r hr hdone
        exact ⟨n, hn, st, List.mem_append_left _ hst, hreads⟩
      · rw [List.mem_singleton.mp hr] at hdone
        cases hdone
    | declined hp hstatus =>
      refine ⟨hexact, fun r hr hdone => ?_⟩
      obtain ⟨n, hn, st, hst, hreads⟩ := howned r hr hdone
      exact ⟨n, hn, st, List.mem_append_left _ hst, hreads⟩
    | served hr hserve =>
      exact ⟨hexact.serve hr (hlast _ _ _ rfl hr) hserve, howned.serve hexact hr hserve⟩

/-- Once a key that is not usable has been read, there is a stale one. -/
lemma Room.stale_of_run {steps : List (System.Step Room Event Obs)} {userdata : Bytes}
    (h : (room L).Run (Room.init userdata) steps R)
    (hunusable : ∃ st ∈ steps, ¬ Room.AllUsable L st) : R.Stale L := by
  refine h.after ?_ (fun R e o R' hstale hstep => hstale.step hstep) hunusable
  intro steps R e o R' hrun husable hstep hnot
  have hexact := (Room.keys_of_run hrun fun st hst => not_not.mp (husable st hst)).1
  simp only [Room.AllUsable, Usable, not_forall] at hnot
  obtain ⟨i, w, r, rfl, hr, n, hkey, hspent⟩ := hnot
  obtain ⟨r', q, hr', hserve, -, rfl⟩ := Room.Step.served_inv hstep
  cases hr.symm.trans hr'
  exact hexact.stale hr hkey (Option.not_isSome_iff_eq_none.mp hspent) hserve

/-- The answer to a key message is the server key under the key in that message. -/
lemma Room.KeysExact.answer (h : R.KeysExact) (hr : R.rows[i]? = some r) {n : ℤ}
    (hkey : KeyMessage L w r n) (hserve : R.serve L w i r = .ok q) {d : Bytes}
    (hact : .sent r.sock (.clear d) ∈ q.acts) :
    ∃ ciphertext, L.rsaEncrypt n serverKey = some ciphertext ∧ d = ciphertext w.seed := by
  have hreq : R.request L w r = .ok (.key n) := Room.request_key_iff.mpr hkey
  have hdone : r.status ≠ .done := fun hs => by cases hs.symm.trans hkey.1
  have hemission := Room.serve_emission hr hreq hserve hact
  generalize hp : r.sock = p at hemission
  cases hemission with
  | spb hlogin => cases hlogin
  | serverKey hct =>
    rw [h.insertKey_self hr hdone, Option.bind_some] at hct
    exact ⟨_, hct, rfl⟩

/-! ### Runs of the server -/

/-- The key an event reads, if any, is usable. -/
def Event.Usable (L : Library) (c : Config) (e : Event) : Prop :=
  ∀ i w r, e = .receive i w → c.row? i = some r → OpenSimp.Usable L w r

/-- After the steps of a run the table has the sockets of the `Done` clients with the key each of
them sent, and every key message was answered under the key in it. -/
structure Config.KeysMatch (L : Library) (c : Config) (steps : List (Step Config Event Obs)) :
    Prop where
  domain : ∀ p, (c.server.keys p).isSome ↔
    ∃ k r, c.row? k = some r ∧ r.sock = p ∧ r.status = .done
  own : ∀ k r, c.row? k = some r → r.status = .done →
    ∃ n, c.server.keys r.sock = some n ∧ ∃ st ∈ steps, ∃ i w r', st.event = .receive i w ∧
      st.pre.row? i = some r' ∧ r'.conn = r.conn ∧ KeyMessage L w r' n
  answers : ∀ st ∈ steps, ∀ i w r n d, st.event = .receive i w → st.pre.row? i = some r →
    KeyMessage L w r n → .sent r.sock (.clear d) ∈ st.obs.acts →
    ∃ ciphertext, L.rsaEncrypt n serverKey = some ciphertext ∧ d = ciphertext w.seed

lemma Room.keysMatch {steps : List (System.Step Room Event Obs)} {userdata : Bytes}
    (h : (room L).Run (Room.init userdata) steps R) (husable : ∀ st ∈ steps, Room.AllUsable L st) :
    R.config.KeysMatch L (steps.map (Step.map Room.config)) where
  domain := by
    intro p
    rw [show R.config.server.keys p = R.keys p from rfl, (Room.keys_of_run h husable).1 p]
    exact Room.exists_config_row?.symm
  own := by
    intro k r hr hdone
    rw [Room.config_row?] at hr
    obtain ⟨n, hn, st, hst, i, w, r', he, hr', hconn, hkey⟩ :=
      (Room.keys_of_run h husable).2 r (List.mem_of_getElem? hr) hdone
    exact ⟨n, hn, _, List.mem_map_of_mem hst, i, w, r', he, (Room.config_row? _ i).trans hr',
      hconn, hkey⟩
  answers := by
    intro st hst i w r n d he hr hkey hact
    obtain ⟨rst, hrst, rfl⟩ := List.mem_map.mp hst
    obtain ⟨before, after, hsteps⟩ := List.append_of_mem hrst
    obtain ⟨hpre, hstep⟩ := h.split hsteps
    have hexact := (Room.keys_of_run hpre fun st hst =>
      husable st (hsteps ▸ List.mem_append_left _ hst)).1
    rw [show rst.event = .receive i w from he] at hstep
    obtain ⟨r₁, q, hr₁, hserve, hobs, -⟩ := Room.Step.served_inv hstep
    cases hr₁.symm.trans ((Room.config_row? _ i).symm.trans hr)
    exact hexact.answer hr₁ hkey hserve (by rwa [← show rst.obs.acts = q.acts by rw [hobs]])

lemma Room.keysExact_of_keysMatch {steps : List (System.Step Config Event Obs)}
    (h : R.config.KeysMatch L steps) : R.KeysExact :=
  fun p => (h.domain p).trans Room.exists_config_row?

/-- After a run the table of session keys matches the clients if and only if the steps of the run
have read only keys under which the server key can be encrypted. -/
theorem keys_match_iff (L : Library) (userdata : Bytes) {steps : List (Step Config Event Obs)}
    {c : Config} (h : (server L).Run (Config.init userdata) steps c) :
    c.KeysMatch L steps ↔ ∀ st ∈ steps, st.event.Usable L st.pre := by
  obtain ⟨rsteps, R, hrun, rfl, rfl⟩ := run_lift h
  have husable : (∀ st ∈ rsteps.map (Step.map Room.config), st.event.Usable L st.pre) ↔
      ∀ st ∈ rsteps, Room.AllUsable L st := by
    rw [List.forall_mem_map]
    refine forall₂_congr fun st _ => ?_
    simp only [Event.Usable, Room.AllUsable, Step.map, Room.config_row?]
  rw [husable]
  constructor
  · intro hmatch
    by_contra hnot
    simp only [not_forall, exists_prop] at hnot
    exact (Room.stale_of_run hrun hnot).not_keysExact (Room.keysExact_of_keysMatch hmatch)
  · exact Room.keysMatch hrun

/-- Whether the key in a message to the toy server, if any, is usable. -/
def Toy.usableData (data : Bytes) : Bool :=
  match (ofBuffer maxRawData data).bind toy.bigInt with
  | some n => !toy.rsaPublicKey n || (toy.rsaEncrypt n serverKey).isSome
  | none => true

lemma Toy.usable_of_usableData {c : Config} {e : Event}
    (h : ∀ i w, e = .receive i w → usableData w.data = true) : e.Usable toy c := by
  intro i w r he hr n hkey
  obtain ⟨-, -, -, text, htext, hn, hpub⟩ := hkey
  have hdata := h i w he
  rw [usableData, htext, Option.bind_some, hn] at hdata
  simpa [hpub] using hdata

/-- A client logs in, exchanges keys, sends a message and leaves; another takes its socket. -/
def Toy.reusing : List Event :=
  [joins 1, polls 0 (logsIn (ascii "alice") (ascii "pw")) 5,
    polls 0 modulus 10, leaves 0, joins 1,
    polls 0 (logsIn (ascii "bob") (ascii "pw")) 20,
    polls 0 modulus 30]

theorem keys_match_iff_toy :
    ∃ steps c, play toy (Config.init []) Toy.reusing = some (steps, c) ∧
      c.server.clientAuthenticatedArray = [.done] ∧ c.KeysMatch toy steps := by
  have hsome : (play toy (Config.init []) Toy.reusing).map (·.2.server.clientAuthenticatedArray) =
      some [.done] := by decide +kernel
  have hdata : ∀ e ∈ Toy.reusing, ∀ i w, e = .receive i w → Toy.usableData w.data = true := by
    have hall : (Toy.reusing.all fun
        | .receive _ w => Toy.usableData w.data
        | .accept _ _ => true) = true := by decide +kernel
    rintro e he i w rfl
    exact List.all_eq_true.mp hall _ he
  obtain ⟨⟨steps, c⟩, hplay, hstatus⟩ := Option.map_eq_some_iff.mp hsome
  refine ⟨steps, c, hplay, hstatus, (keys_match_iff toy [] (run_of_play hplay)).mpr ?_⟩
  intro st hst
  exact Toy.usable_of_usableData
    (hdata _ (map_event_of_play hplay ▸ List.mem_map_of_mem hst))

/-- A client whose key is accepted but too small is disconnected and leaves it behind. -/
def Toy.leavingKey : List Event :=
  [joins 1, polls 0 (logsIn (ascii "alice") (ascii "pw")) 5,
    polls 0 (ascii "17") 10]

theorem not_keys_match_toy :
    ¬ ∀ steps c, (server toy).Run (Config.init []) steps c → c.KeysMatch toy steps := by
  have hsome : (play toy (Config.init []) Toy.leavingKey).map
      (fun x => (x.2.server.keys 1, x.2.server.clientArray)) = some (some 17, []) := by
    decide +kernel
  obtain ⟨⟨steps, c⟩, hplay, hkeys⟩ := Option.map_eq_some_iff.mp hsome
  have hkey : c.server.keys 1 = some 17 := (Prod.mk.inj hkeys).1
  have hsocks : c.server.clientArray = [] := (Prod.mk.inj hkeys).2
  intro hall
  have hdomain := ((hall steps c (run_of_play hplay)).domain 1).mp (by simp [hkey])
  obtain ⟨k, r, hr, -⟩ := hdomain
  simp [Config.row?, hsocks] at hr

end OpenSimp
