import OpenSimp.Properties.Accounts
import OpenSimp.Properties.Rows
import OpenSimp.Room.Faults
import OpenSimp.Toy.Library

/-!
# What a client's bytes do to the server

`receive` catches what decryption throws and nothing else, copies chat packets to a buffer of 256
bytes and splits commands into 512 slots. `Handled` says, for each status of a client, which bytes
get past all of these; on any others the event does not return. A refused password is handled, but
its log line asks a deleted socket for its address.
-/

namespace OpenSimp

open Bytes FaultState System ServerNetwork

variable {R : Room} {L : Library} {w : World} {i : ℕ} {r : Row} {req : Request} {q : Reply}
  {accounts : List (Bytes × Bytes)}

/-! ### The bytes that are handled -/

/-- A message that names a modulus the key's constructor accepts. -/
def HandledKey (L : Library) (data : Bytes) : Prop :=
  ∃ text n, ofBuffer maxRawData data = some text ∧ L.bigInt text = some n ∧
    L.rsaPublicKey n = true

/-- A plaintext of the client `clientid` that fits the buffer or the slots it is put into. -/
structure HandledPlaintext (clientid d : Bytes) : Prop where
  chat : ∀ text, requestOfPlaintext d = .chat text →
    isBlank (cstr text) = true ∨ (cstr (chatPacket text clientid)).length < 256
  command : ∀ text, requestOfPlaintext d = .command text → text.count space < Executor.slots

/-- A packet of the client `clientid` that has a nonce, and decrypts to such a plaintext if it
decrypts at all. -/
def HandledPacket (L : Library) (clientid data : Bytes) : Prop :=
  Cryptography.nonceLength ≤ data.length ∧ ∀ d,
    L.aesDecrypt ((L.hexDecode serverKey).getD []) (data.take Cryptography.nonceLength)
      (data.drop Cryptography.nonceLength) = some d → HandledPlaintext clientid d

/-- The bytes of the row `r` that get past every call that may fail. -/
def Handled (L : Library) (w : World) (r : Row) : Prop :=
  match r.status with
  | .undone => True
  | .keyReceived => HandledKey L w.data
  | _ => asMilliseconds (w.now - r.interval) ≤ 20 ∨ HandledPacket L r.clientid w.data

/-- The row `r` logs in as a registered user with a password that is not the stored one. -/
def WrongPassword (L : Library) (text : Bytes) (w : World) (r : Row) : Prop :=
  r.status = .undone ∧ ∃ u p, Presented L w.data u p ∧ Registered L text u ∧ ¬ Stored L text u p

/-- The credentials in a message are unique. -/
lemma Presented.unique {data u p u' p' : Bytes} (h : Presented L data u p)
    (h' : Presented L data u' p') : u' = u ∧ p' = p := by
  obtain ⟨decstr, hdec, rfl, rfl, -⟩ := h
  obtain ⟨decstr', hdec', rfl, rfl, -⟩ := h'
  cases hdec.symm.trans hdec'
  exact ⟨rfl, rfl⟩

lemma requestOfLogin_of_presented {text data u p : Bytes} (h : Presented L data u p) :
    requestOfLogin L text data = requestOfCredentials L text u p := by
  obtain ⟨decstr, hdec, rfl, rfl, hu, hp⟩ := h
  rw [requestOfLogin, hdec]
  exact if_neg (not_or.mpr ⟨hu, hp⟩)

/-- Without two proper fields in the message nobody is looked up. -/
lemma requestOfLogin_of_not_presented {text data : Bytes} (h : ∀ u p, ¬ Presented L data u p) :
    requestOfLogin L text data = .ok .garbledLogin := by
  rw [requestOfLogin]
  cases hdec : L.rsaDecrypt data with
  | none => rfl
  | some decstr =>
    dsimp only
    apply if_pos
    by_contra hempty
    rw [not_or] at hempty
    exact h _ _ ⟨decstr, hdec, rfl, rfl, hempty.1, hempty.2⟩

/-- With a file that `registerUser` wrote, reading credentials never fails. -/
lemma requestOfLogin_isOk (hL : YamlLaws L) {text : Bytes} (hw : Written L text accounts)
    (data : Bytes) : ∃ req, requestOfLogin L text data = .ok req := by
  by_cases h : ∃ u p, Presented L data u p
  · obtain ⟨u, p, h⟩ := h
    exact ⟨_, (requestOfLogin_of_presented h).trans (hw.requestOfCredentials_eq hL)⟩
  · simp only [not_exists] at h
    exact ⟨_, requestOfLogin_of_not_presented h⟩

lemma requestOfLogin_eq_wrongPassword (hL : YamlLaws L) {text : Bytes}
    (hw : Written L text accounts) (data : Bytes) :
    requestOfLogin L text data = .ok .wrongPassword ↔
      ∃ u p, Presented L data u p ∧ Registered L text u ∧ ¬ Stored L text u p := by
  constructor
  · intro h
    rcases requestOfLogin_outcome h with heq | ⟨u, p, hpres, hout⟩
    · cases heq
    · cases hout with
      | wrongPassword hreg hne => exact ⟨u, p, hpres, hreg, hne⟩
  · rintro ⟨u, p, hpres, hreg, hne⟩
    rw [hw.registered_iff hL] at hreg
    rw [hw.stored_iff hL] at hne
    rw [requestOfLogin_of_presented hpres, hw.requestOfCredentials_eq hL, if_neg hne, if_pos hreg]

lemma requestOfKey_isOk {data : Bytes} :
    (∃ req, requestOfKey L data = .ok req ∧ req.HasRoom r.clientid) ↔ HandledKey L data := by
  constructor
  · rintro ⟨req, h, -⟩
    obtain ⟨text, n, htext, hn, hpub, -⟩ := requestOfKey_eq_ok h
    exact ⟨text, n, htext, hn, hpub⟩
  · rintro ⟨text, n, htext, hn, hpub⟩
    refine ⟨.key n, ?_, trivial⟩
    rw [requestOfKey, htext]
    simp only [hn, hpub, if_true]

lemma hasRoom_requestOfPlaintext {clientid d : Bytes} :
    (requestOfPlaintext d).HasRoom clientid ↔ HandledPlaintext clientid d := by
  constructor
  · intro h
    constructor
    · intro text hd
      rwa [hd] at h
    · intro text hd
      rwa [hd] at h
  · intro h
    cases hd : requestOfPlaintext d with
    | chat text => exact h.chat text hd
    | command text => exact h.command text hd
    | _ => trivial

lemma requestOfPacket_isOk {clientid data : Bytes} :
    (∃ req, requestOfPacket L data = .ok req ∧ req.HasRoom clientid) ↔
      HandledPacket L clientid data := by
  rw [requestOfPacket, Cryptography.decrypt_eq, HandledPacket]
  split_ifs with hlen
  · refine iff_of_false ?_ fun h => absurd h.1 (by omega)
    rintro ⟨req, h, -⟩
    cases h
  · cases L.aesDecrypt ((L.hexDecode serverKey).getD []) (data.take Cryptography.nonceLength)
      (data.drop Cryptography.nonceLength) with
    | none => exact iff_of_true ⟨.unreadable, rfl, trivial⟩ ⟨by omega, by simp⟩
    | some d =>
      simp only [Except.ok.injEq, exists_eq_left', hasRoom_requestOfPlaintext, Option.some.injEq,
        forall_eq']
      exact ⟨fun h => ⟨by omega, h⟩, fun h => h.2⟩

lemma Room.request_of_data (hopen : w.status ≠ .disconnected) (hdata : w.data ≠ []) :
    R.request L w r = if r.status = .done ∧ asMilliseconds (w.now - r.interval) ≤ 20 then .ok .spam
      else R.requestOfData L w.data r := by
  rw [Room.request, if_neg hopen, if_neg hdata]

/-- Which bytes are a request the server has room for. -/
lemma Room.request_hasRoom_iff (hL : YamlLaws L) (hw : Written L R.userdata accounts)
    (hnamed : r.Named) (hopen : w.status ≠ .disconnected) (hdata : w.data ≠ []) :
    (∃ req, R.request L w r = .ok req ∧ req.HasRoom r.clientid) ↔ Handled L w r := by
  rw [Room.request_of_data hopen hdata, Handled, Room.requestOfData]
  cases hstatus : r.status with
  | undone =>
    obtain ⟨req, hreq⟩ := requestOfLogin_isOk hL hw w.data
    refine iff_of_true ⟨req, by simpa using hreq, ?_⟩ trivial
    have hfits := requestOfLogin_fits hreq
    cases req with
    | chat text | command text => exact absurd rfl hfits.1
    | _ => trivial
  | keyReceived => simpa using requestOfKey_isOk
  | done =>
    by_cases hspam : asMilliseconds (w.now - r.interval) ≤ 20
    · simp only [hspam, and_self, if_true, true_or, iff_true]
      exact ⟨.spam, rfl, trivial⟩
    · simpa [hspam] using requestOfPacket_isOk
  | failed => exact absurd hstatus hnamed.ne_failed

lemma Room.request_wrongPassword_iff (hL : YamlLaws L) (hw : Written L R.userdata accounts)
    (hopen : w.status ≠ .disconnected) (hdata : w.data ≠ []) :
    R.request L w r = .ok .wrongPassword ↔ WrongPassword L R.userdata w r := by
  rw [WrongPassword, ← requestOfLogin_eq_wrongPassword hL hw]
  constructor
  · intro h
    have hundone : r.status = .undone := Room.request_fits h
    rw [Room.request_of_data hopen hdata, if_neg (by simp [hundone]), Room.requestOfData,
      if_pos hundone] at h
    exact ⟨hundone, h⟩
  · rintro ⟨hundone, h⟩
    rw [Room.request_of_data hopen hdata, if_neg (by simp [hundone]), Room.requestOfData,
      if_pos hundone]
    exact h

/-! ### Runs of the server -/

/-- Polling row `i` returns, and removes or changes that row only. -/
def Config.Returns (L : Library) (c : Config) (i : ℕ) (w : World) : Prop :=
  ∃ m, (Event.code L (.receive i w)).run c.machine = .ok ((), m) ∧
    c.Frames m.config (.receive i w)

/-- It does so without using a socket after deleting it. -/
def Config.EndsNormally (L : Library) (c : Config) (i : ℕ) (w : World) : Prop :=
  ∃ m, (Event.code L (.receive i w)).run c.machine = .ok ((), m) ∧
    c.Frames m.config (.receive i w) ∧ m.useAfterFree = false

lemma Room.frames_of_serve (hr : R.rows[i]? = some r) (h : R.serve L w i r = .ok q) :
    R.config.Frames q.room.config (.receive i w) :=
  (Room.Step.served hr h).frames.1

lemma Room.returns_iff (hr : R.rows[i]? = some r) :
    R.config.Returns L i w ↔ ∃ q, R.serve L w i r = .ok q := by
  rw [Config.Returns, Room.code_receive_run hr]
  constructor
  · rintro ⟨m, hrun, -⟩
    cases hserve : R.serve L w i r with
    | error e => rw [hserve] at hrun; cases hrun
    | ok q => exact ⟨q, rfl⟩
  · rintro ⟨q, hserve⟩
    exact ⟨q.machine, by rw [hserve]; rfl, Room.frames_of_serve hr hserve⟩

lemma Room.endsNormally_iff (hr : R.rows[i]? = some r) :
    R.config.EndsNormally L i w ↔
      R.config.Returns L i w ∧ R.request L w r ≠ .ok .wrongPassword := by
  rw [Room.returns_iff hr, Config.EndsNormally, Room.code_receive_run hr]
  constructor
  · rintro ⟨m, hrun, -, hclean⟩
    cases hserve : R.serve L w i r with
    | error e => rw [hserve] at hrun; cases hrun
    | ok q =>
      rw [hserve] at hrun
      cases hrun
      refine ⟨⟨q, rfl⟩, fun hreq => ?_⟩
      have huse := (Room.serve_useAfterFree hserve).mpr hreq
      cases hclean.symm.trans huse
  · rintro ⟨⟨q, hserve⟩, hreq⟩
    refine ⟨q.machine, by rw [hserve]; rfl, Room.frames_of_serve hr hserve, ?_⟩
    exact Bool.eq_false_iff.mpr fun huse => hreq ((Room.serve_useAfterFree hserve).mp huse)

/-- In every state the server reaches, it survives exactly the bytes that are handled, and uses no
deleted socket unless they have a wrong password. -/
theorem ends_normally_iff_handled (L : Library) (hL : YamlLaws L) {userdata : Bytes}
    (hw : Written L userdata accounts) {c : Config}
    (h : (server L).Reachable (Config.init userdata) c) (hr : c.row? i = some r)
    (hopen : w.status ≠ .disconnected) (hdata : w.data ≠ []) :
    (c.Returns L i w ↔ Handled L w r) ∧
      (c.EndsNormally L i w ↔ Handled L w r ∧ ¬ WrongPassword L c.server.userdata w r) := by
  obtain ⟨R, hR, rfl⟩ := reachable_lift h
  rw [Room.config_row?] at hr
  obtain ⟨_, hrun⟩ := hR
  have hwritten := Room.written_of_run hL hw hrun
  have hnamed := (Room.named_of_reachable hrun.reachable).named r (List.mem_of_getElem? hr)
  have hreturns : R.config.Returns L i w ↔ Handled L w r := by
    rw [Room.returns_iff hr, Room.serve_isOk hnamed,
      Room.request_hasRoom_iff hL hwritten hnamed hopen hdata]
  refine ⟨hreturns, ?_⟩
  rw [Room.endsNormally_iff hr, hreturns, ne_eq,
    Room.request_wrongPassword_iff hL hwritten hopen hdata]
  rfl

/-- Alice logs in and sends the text of a key. -/
def Toy.exchangingKeys : List Event :=
  [joins 1, polls 0 (logsIn (ascii "alice") (ascii "pw")) 5]

theorem ends_normally_iff_handled_toy :
    ∃ steps c, play toy (Config.init []) Toy.exchangingKeys = some (steps, c) ∧
      c.EndsNormally toy 0 (Toy.world .done Toy.modulus 10) := by
  have hsome : (play toy (Config.init []) Toy.exchangingKeys).map
      (fun x => (x.2.row? 0).map (·.status)) = some (some .keyReceived) := by decide +kernel
  obtain ⟨⟨steps, c⟩, hplay, hrow⟩ := Option.map_eq_some_iff.mp hsome
  obtain ⟨r, hr, hstatus⟩ := Option.map_eq_some_iff.mp hrow
  have hkey : ((ofBuffer maxRawData (Toy.world .done Toy.modulus 10).data).bind toy.bigInt).map
      toy.rsaPublicKey = some true := by decide +kernel
  obtain ⟨n, hn, hpub⟩ := Option.map_eq_some_iff.mp hkey
  obtain ⟨text, htext, hn⟩ := Option.bind_eq_some_iff.mp hn
  have hiff := ends_normally_iff_handled toy toy_yamlLaws Written.nil (run_of_play hplay).reachable
    hr (w := Toy.world .done Toy.modulus 10) (by decide) (by decide +kernel)
  refine ⟨steps, c, hplay, hiff.2.mpr ⟨?_, ?_⟩⟩
  · rw [Handled, hstatus]
    exact ⟨text, n, htext, hn, hpub⟩
  · rintro ⟨hundone, -⟩
    cases hstatus.symm.trans hundone

/-- In that state the text of no number makes the event throw. -/
theorem not_returns_toy :
    ¬ ∀ c, (server toy).Reachable (Config.init []) c → ∀ i r w, c.row? i = some r →
      w.status ≠ .disconnected → w.data ≠ [] → c.Returns toy i w := by
  have hsome : (play toy (Config.init []) Toy.exchangingKeys).map (fun x =>
      ((x.2.row? 0).isSome, decide ((Toy.polls 0 (ascii "abc") 10).Enabled x.2),
        (fire toy x.2 (Toy.polls 0 (ascii "abc") 10)).isSome)) =
      some (true, true, false) := by decide +kernel
  obtain ⟨⟨steps, c⟩, hplay, heq⟩ := Option.map_eq_some_iff.mp hsome
  simp only [Prod.mk.injEq, decide_eq_true_eq] at heq
  obtain ⟨hrow, henabled, hfire⟩ := heq
  obtain ⟨r, hr⟩ := Option.isSome_iff_exists.mp hrow
  intro hall
  obtain ⟨m, hrun, -⟩ := hall c (run_of_play hplay).reachable 0 r
    (Toy.world .done (ascii "abc") 10) hr (by decide) (by decide)
  rw [fire, if_pos henabled] at hfire
  have hrun' : ((Toy.polls 0 (ascii "abc") 10).code toy).run c.machine = .ok ((), m) := hrun
  rw [hrun'] at hfire
  cases hfire

end OpenSimp
