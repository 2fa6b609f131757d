import OpenSimp.Properties.Robustness
import OpenSimp.Toy.Library

/-!
# Sockets, buffers and argument slots

Where `receive` touches memory: the sockets it calls members of, the buffers that its C strings are
in, and the slots that a command is split into. Each theorem says which bytes of which clients keep
these accesses where they belong.
-/

namespace OpenSimp

open Bytes FaultState System ServerNetwork

variable {R : Room} {L : Library} {w : World} {i : ℕ} {r : Row} {req : Request} {q : Reply}

/-! ### Deleted sockets -/

/-- `userdata.yml` has an entry for the user `u`, with no password or with one other than `p`. -/
def PasswordDiffers (L : Library) (text u p : Bytes) : Prop :=
  ∃ config user password, L.yamlLoad text = some config ∧ config.subscript u = .ok user ∧
    user.isDefined = true ∧ user.subscript (ascii "password") = .ok password ∧
    (password.isDefined = false ∨ ∃ stored, password.asString = .ok stored ∧ stored ≠ p)

lemma requestOfCredentials_eq_wrongPassword {text u p : Bytes} :
    requestOfCredentials L text u p = .ok .wrongPassword ↔ PasswordDiffers L text u p := by
  constructor
  · intro h
    rw [requestOfCredentials] at h
    cases hload : L.yamlLoad text with
    | none => rw [hload] at h; cases h
    | some config =>
      rw [hload] at h
      obtain ⟨user, huser, h⟩ := bind_eq_ok h
      split_ifs at h with hdef
      · obtain ⟨password, hpassword, h⟩ := bind_eq_ok h
        refine ⟨config, user, password, hload, huser, hdef, hpassword, ?_⟩
        split_ifs at h with hpdef
        · obtain ⟨stored, hstored, h⟩ := bind_eq_ok h
          split_ifs at h with hp
          · cases h
          · exact .inr ⟨stored, hstored, hp⟩
        · exact .inl (by simpa using hpdef)
      · cases h
  · rintro ⟨config, user, password, hload, huser, hdef, hpassword, hdiffers⟩
    rw [requestOfCredentials, hload]
    simp only [huser, ok_bind, hdef, if_true, hpassword]
    rcases hdiffers with hpdef | ⟨stored, hstored, hp⟩
    · simp [hpdef]
      rfl
    · have hpdef : password.isDefined = true := by
        cases password with
        | undefined => cases hstored
        | _ => rfl
      simp only [hpdef, if_true, hstored, ok_bind, if_neg hp]
      rfl

/-- The row `r` is not logged in yet, and sends the name of a user in `userdata.yml` with another
password than the user's. -/
def SendsWrongPassword (L : Library) (text : Bytes) (w : World) (r : Row) : Prop :=
  w.status ≠ .disconnected ∧ w.data ≠ [] ∧ r.status = .undone ∧
    ∃ u p, Presented L w.data u p ∧ PasswordDiffers L text u p

lemma requestOfLogin_eq_wrongPassword_iff {text data : Bytes} :
    requestOfLogin L text data = .ok .wrongPassword ↔
      ∃ u p, Presented L data u p ∧ PasswordDiffers L text u p := by
  constructor
  · intro h
    by_cases hpres : ∃ u p, Presented L data u p
    · obtain ⟨u, p, hpres⟩ := hpres
      rw [requestOfLogin_of_presented hpres, requestOfCredentials_eq_wrongPassword] at h
      exact ⟨u, p, hpres, h⟩
    · simp only [not_exists] at hpres
      rw [requestOfLogin_of_not_presented hpres] at h
      cases h
  · rintro ⟨u, p, hpres, hdiffers⟩
    rw [requestOfLogin_of_presented hpres]
    exact requestOfCredentials_eq_wrongPassword.mpr hdiffers

lemma Room.request_eq_wrongPassword :
    R.request L w r = .ok .wrongPassword ↔ SendsWrongPassword L R.userdata w r := by
  rw [SendsWrongPassword, ← requestOfLogin_eq_wrongPassword_iff]
  constructor
  · intro h
    have hundone : r.status = .undone := Room.request_fits h
    rw [Room.request] at h
    split_ifs at h with hclosed hempty hspam
    · cases h
    · cases h
    · cases h
    · rw [Room.requestOfData, if_pos hundone] at h
      exact ⟨hclosed, hempty, hundone, h⟩
  · rintro ⟨hopen, hdata, hundone, h⟩
    rw [Room.request_of_data hopen hdata, if_neg (by simp [hundone]), Room.requestOfData,
      if_pos hundone]
    exact h

/-- Handling a poll uses no deleted socket unless it has a wrong password. -/
lemma Room.final_useAfterFree (hr : R.rows[i]? = some r) (L : Library) (w : World) :
    ((Event.code L (.receive i w)).final R.config.machine).useAfterFree = false ↔
      ¬ SendsWrongPassword L R.userdata w r := by
  rw [← Room.request_eq_wrongPassword]
  rcases Room.code_receive_final hr L w with ⟨q, hserve, hfinal⟩ | ⟨⟨e, hserve⟩, huntouched⟩
  · have huse : q.machine.useAfterFree = q.useAfterFree := rfl
    rw [hfinal, huse, ← Room.serve_useAfterFree hserve, Bool.not_eq_true]
  · refine iff_of_true huntouched.1 fun hreq => ?_
    have hok : ∃ q, R.serve L w i r = .ok q := by
      rw [Room.serve, hreq, ok_bind]
      exact ⟨_, rfl⟩
    obtain ⟨q, hq⟩ := hok
    cases hserve.symm.trans hq

/-- In every state the server reaches, its table lists allocated sockets, each once, and handling
a poll uses no deleted one unless a client that is not logged in sends a wrong password. -/
theorem sockets_live_iff (L : Library) {userdata : Bytes} {c : Config}
    (h : (server L).Reachable (Config.init userdata) c) :
    c.server.clientArray.Nodup ∧ (∀ p ∈ c.server.clientArray, c.live p = true) ∧
      ∀ i r w, c.row? i = some r →
        (((Event.code L (.receive i w)).final c.machine).useAfterFree = false ↔
          ¬ SendsWrongPassword L c.server.userdata w r) := by
  obtain ⟨R, -, rfl⟩ := reachable_lift h
  refine ⟨R.nodup_sock, fun p hp => decide_eq_true hp, ?_⟩
  intro i r w hr
  rw [Room.config_row?] at hr
  exact Room.final_useAfterFree hr L w

/-- Alice has an account, and a second client connects. -/
def Toy.guessing : List Event :=
  [joins 1, polls 0 (logsIn (ascii "alice") (ascii "pw")) 5, joins 2]

/-- The second client guesses Alice's password. -/
def Toy.guess : World := world .done (logsIn (ascii "alice") (ascii "12")) 9

lemma Toy.exists_guess :
    ∃ steps c r, play toy (Config.init []) guessing = some (steps, c) ∧ c.row? 1 = some r ∧
      ((Event.code toy (.receive 1 guess)).final c.machine).useAfterFree = true := by
  have hsome : (play toy (Config.init []) guessing).map (fun x => ((x.2.row? 1).isSome,
      ((Event.code toy (.receive 1 guess)).final x.2.machine).useAfterFree)) =
      some (true, true) := by decide +kernel
  obtain ⟨⟨steps, c⟩, hplay, heq⟩ := Option.map_eq_some_iff.mp hsome
  obtain ⟨hrow, huse⟩ := Prod.mk.inj heq
  obtain ⟨r, hr⟩ := Option.isSome_iff_exists.mp hrow
  exact ⟨steps, c, r, hplay, hr, huse⟩

theorem sockets_live_iff_toy :
    ∃ steps c r, play toy (Config.init []) Toy.guessing = some (steps, c) ∧
      c.row? 1 = some r ∧ c.server.clientArray.Nodup ∧
      SendsWrongPassword toy c.server.userdata Toy.guess r := by
  obtain ⟨steps, c, r, hplay, hr, huse⟩ := Toy.exists_guess
  have hlive := sockets_live_iff toy (run_of_play hplay).reachable
  refine ⟨steps, c, r, hplay, hr, hlive.1, ?_⟩
  by_contra hright
  have hclean := (hlive.2.2 1 r Toy.guess hr).mpr hright
  cases huse.symm.trans hclean

/-- The log line after the refusal asks the deleted socket for its address. -/
theorem not_sockets_live_toy :
    ¬ ∀ c, (server toy).Reachable (Config.init []) c → ∀ i r w, c.row? i = some r →
      ((Event.code toy (.receive i w)).final c.machine).useAfterFree = false := by
  obtain ⟨steps, c, r, hplay, hr, huse⟩ := Toy.exists_guess
  intro hall
  have hclean := hall c (run_of_play hplay).reachable 1 r Toy.guess hr
  cases huse.symm.trans hclean

/-! ### Buffers -/

/-- A C string of the poll of the row `r` does not fit its buffer: the text of a key fills the
buffer it is received in, or the packet of a chat text the one it is copied to. -/
inductive Overruns (L : Library) (w : World) (r : Row) : Prop
  | key (hopen : w.status ≠ .disconnected) (hkey : r.status = .keyReceived)
      (hlen : w.data.length = maxRawData) (hnul : (0 : Byte) ∉ w.data)
  | chat {text : Bytes} (h : SendsPlaintext L w r (48 :: text)) (hadm : Admissible (48 :: text))
      (hblank : isBlank (cstr text) = false)
      (hlong : 256 ≤ (cstr (chatPacket text r.clientid)).length)

lemma ofBuffer_eq_none_iff : ofBuffer maxRawData w.data = none ↔
    w.data.length = maxRawData ∧ (0 : Byte) ∉ w.data := by
  have hle := w.data_length_le
  rw [ofBuffer]
  split_ifs with h
  · refine iff_of_false (by simp) fun hfull => ?_
    rcases h with hnul | hlt
    · exact hfull.2 hnul
    · omega
  · rw [not_or] at h
    exact iff_of_true rfl ⟨by omega, h.1⟩

/-- Reading a request overruns a buffer only for a key. -/
lemma Room.request_overrun : R.request L w r = .error .overrun ↔
    w.status ≠ .disconnected ∧ r.status = .keyReceived ∧ w.data.length = maxRawData ∧
      (0 : Byte) ∉ w.data := by
  rw [← ofBuffer_eq_none_iff, Room.request]
  constructor
  · intro h
    split_ifs at h with hclosed hempty hspam
    rw [Room.requestOfData] at h
    split_ifs at h with hundone hkey
    · cases requestOfLogin_error h
    · rcases requestOfKey_error h with ⟨-, hfull⟩ | h
      · exact ⟨hclosed, hkey, hfull⟩
      · cases h
    · cases (requestOfPacket_error h).1
  · rintro ⟨hopen, hkey, hfull⟩
    have hdata : w.data ≠ [] := by
      intro hdata
      have hlen := (ofBuffer_eq_none_iff.mp hfull).1
      rw [hdata] at hlen
      cases hlen
    rw [if_neg hopen, if_neg hdata, if_neg (by simp [hkey]), Room.requestOfData,
      if_neg (by simp [hkey]), if_pos hkey, requestOfKey, hfull]

lemma Room.serve_overrun (hnamed : r.Named) :
    R.serve L w i r = .error .overrun ↔ Overruns L w r := by
  constructor
  · intro h
    rcases Room.serve_error h with hreq | ⟨req, hreq, hresp⟩
    · obtain ⟨hopen, hkey, hlen, hnul⟩ := Room.request_overrun.mp hreq
      exact .key hopen hkey hlen hnul
    · have hroom : ¬ req.HasRoom r.clientid := by
        intro hroom
        obtain ⟨q, hq⟩ := (Room.serve_isOk (i := i) hnamed).mpr ⟨req, hreq, hroom⟩
        cases h.symm.trans hq
      rcases Room.respond_error hresp with ⟨-, text, rfl⟩ | ⟨he, -⟩
      · have hfits := Room.request_fits hreq
        have hdone := hnamed.eq_done hfits.1 hfits.2
        obtain ⟨d, hsends, hd⟩ := Room.request_sends hdone hreq (by simp [Request.Unpacked])
        obtain ⟨rfl, hadm⟩ := requestOfPlaintext_chat hd
        rw [Request.HasRoom, not_or] at hroom
        exact .chat hsends hadm (by simpa using hroom.1) (not_lt.mp hroom.2)
      · cases he
  · rintro (⟨hopen, hkey, hlen, hnul⟩ | @⟨text, hsends, hadm, hblank, hlong⟩)
    · rw [Room.serve, Room.request_overrun.mpr ⟨hopen, hkey, hlen, hnul⟩, error_bind]
    · have hid : (r.polled w).clientid ≠ sentinel := by
        rw [Row.polled_clientid]
        intro hs
        cases (hnamed.undone_iff.mpr hs).symm.trans hsends.done
      have hcopy : strcpy 256 (chatPacket text (r.polled w).clientid) = none := by
        rw [strcpy, if_neg]
        rw [Row.polled_clientid]
        exact not_lt.mpr hlong
      rw [chatPacket] at hcopy
      rw [Room.serve, Room.request_of_sends hsends, requestOfPlaintext_of_chat hadm, ok_bind,
        Room.respond, if_neg (by simp [hblank]), if_neg hid, Room.relayed, hcopy]

/-- In every state the server reaches, the C strings of a poll stay inside their buffers unless it
brings a key as long as the buffer, without a NUL, or a chat text whose packet has 256 characters
or more. -/
theorem buffers_hold_iff (L : Library) {userdata : Bytes} {c : Config}
    (h : (server L).Reachable (Config.init userdata) c) (hr : c.row? i = some r) :
    (Event.code L (.receive i w)).run c.machine ≠ .error .overrun ↔ ¬ Overruns L w r := by
  obtain ⟨R, hR, rfl⟩ := reachable_lift h
  rw [Room.config_row?] at hr
  have hnamed := (Room.named_of_reachable hR).named r (List.mem_of_getElem? hr)
  rw [ne_eq, Room.code_receive_run hr, Reply.result_eq_error, Room.serve_overrun hnamed]

/-- Alice logs in and exchanges keys. -/
def Toy.ready : List Event :=
  [joins 1, polls 0 (logsIn (ascii "alice") (ascii "pw")) 5, polls 0 modulus 10]

/-- Alice sends three hundred letters. -/
def Toy.rambles : World := world .done (seals (48 :: List.replicate 300 97)) 1000

lemma Toy.exists_ramble :
    ∃ steps c r, play toy (Config.init []) ready = some (steps, c) ∧ c.row? 0 = some r ∧
      (Event.code toy (.receive 0 rambles)).run c.machine = .error .overrun := by
  have hsome : (play toy (Config.init []) ready).map (fun x => ((x.2.row? 0).isSome,
      match (Event.code toy (.receive 0 rambles)).run x.2.machine with
      | .error e => some e
      | .ok _ => none)) = some (true, some .overrun) := by decide +kernel
  obtain ⟨⟨steps, c⟩, hplay, heq⟩ := Option.map_eq_some_iff.mp hsome
  obtain ⟨hrow, hrun⟩ := Prod.mk.inj heq
  obtain ⟨r, hr⟩ := Option.isSome_iff_exists.mp hrow
  refine ⟨steps, c, r, hplay, hr, ?_⟩
  cases hres : (Event.code toy (.receive 0 rambles)).run c.machine with
  | ok m => rw [hres] at hrun; cases hrun
  | error e =>
    rw [hres] at hrun
    cases hrun
    rfl

theorem buffers_hold_iff_toy :
    ∃ steps c r, play toy (Config.init []) Toy.ready = some (steps, c) ∧ c.row? 0 = some r ∧
      Overruns toy Toy.rambles r := by
  obtain ⟨steps, c, r, hplay, hr, hrun⟩ := Toy.exists_ramble
  refine ⟨steps, c, r, hplay, hr, ?_⟩
  by_contra hfits
  exact (buffers_hold_iff toy (run_of_play hplay).reachable hr).mpr hfits hrun

/-- The length test lets the message through, and the buffer for its packet has 256 bytes. -/
theorem not_buffers_hold_toy :
    ¬ ∀ c, (server toy).Reachable (Config.init []) c → ∀ i r w, c.row? i = some r →
      (Event.code toy (.receive i w)).run c.machine ≠ .error .overrun := by
  obtain ⟨steps, c, r, hplay, hr, hrun⟩ := Toy.exists_ramble
  intro hall
  exact hall c (run_of_play hplay).reachable 0 r Toy.rambles hr hrun

/-! ### Argument slots -/

lemma lex_slots_isOk (e : Bytes) :
    (∃ args, Lexer.lex e (List.replicate Executor.slots []) space = .ok args) ↔
      e.count space < Executor.slots := by
  rw [Executor.lex_slots, Executor.slots]
  by_cases h : e.count space ≤ 511
  · rw [if_pos h]
    exact iff_of_true ⟨_, rfl⟩ (by omega)
  · rw [if_neg h]
    refine iff_of_false ?_ (by omega)
    rintro ⟨args, hargs⟩
    cases hargs

lemma Room.serve_outOfBounds_of_command {e : Bytes} (h : SendsPlaintext L w r (53 :: e))
    (hadm : Admissible (53 :: e)) :
    R.serve L w i r ≠ .error .outOfBounds ↔ e.count space < Executor.slots := by
  rw [Room.serve, Room.request_of_sends h, requestOfPlaintext_of_command hadm, ok_bind,
    ← Room.commandActs_isOk (R := R.polled w i r) (r := r.polled w), Room.respond]
  cases hacts : (R.polled w i r).commandActs (r.polled w) e with
  | ok acts => exact iff_of_true (by rintro ⟨⟩) ⟨acts, rfl⟩
  | error fault =>
    cases Room.commandActs_error hacts
    refine iff_of_false (fun hne => hne rfl) ?_
    rintro ⟨acts, h⟩
    cases h

/-- In every state the server reaches, splitting the command of a `Done` client writes inside the
array exactly if the command has fewer blanks than the array has slots. -/
theorem command_fits_iff (L : Library) {userdata : Bytes} {c : Config}
    (h : (server L).Reachable (Config.init userdata) c) (hr : c.row? i = some r) {e : Bytes}
    (hsends : SendsPlaintext L w r (53 :: e)) (hadm : Admissible (53 :: e)) :
    ((∃ args, Lexer.lex e (List.replicate Executor.slots []) space = .ok args) ↔
        e.count space < Executor.slots) ∧
      ((Event.code L (.receive i w)).run c.machine ≠ .error .outOfBounds ↔
        e.count space < Executor.slots) := by
  obtain ⟨R, -, rfl⟩ := reachable_lift h
  rw [Room.config_row?] at hr
  refine ⟨lex_slots_isOk e, ?_⟩
  rw [Room.code_receive_run hr, ne_eq, Reply.result_eq_error]
  exact Room.serve_outOfBounds_of_command hsends hadm

lemma Toy.exists_ready :
    ∃ steps c r, play toy (Config.init []) ready = some (steps, c) ∧ c.row? 0 = some r ∧
      r.status = .done ∧ r.interval = 0 ∧ r.clientid = ascii "alice" := by
  have hsome : (play toy (Config.init []) ready).map (fun x =>
      (x.2.row? 0).map fun r => (r.status, r.interval, r.clientid)) =
      some (some (.done, 0, ascii "alice")) := by decide +kernel
  obtain ⟨⟨steps, c⟩, hplay, hrow⟩ := Option.map_eq_some_iff.mp hsome
  obtain ⟨r, hr, heq⟩ := Option.map_eq_some_iff.mp hrow
  simp only [Prod.mk.injEq] at heq
  exact ⟨steps, c, r, hplay, hr, heq⟩

/-- Alice asks for help. -/
def Toy.asks : World := world .done (seals (53 :: ascii "help me")) 1000

theorem command_fits_iff_toy :
    ∃ steps c, play toy (Config.init []) Toy.ready = some (steps, c) ∧
      (Event.code toy (.receive 0 Toy.asks)).run c.machine ≠ .error .outOfBounds := by
  obtain ⟨steps, c, r, hplay, hr, hdone, hinterval, -⟩ := Toy.exists_ready
  have hfits := command_fits_iff toy (run_of_play hplay).reachable hr
    (Toy.sendsPlaintext (d := 53 :: ascii "help me") hdone hinterval (by decide))
    ⟨by decide, by decide⟩
  exact ⟨steps, c, hplay, hfits.2.mpr (by decide)⟩

/-- The length test lets a command of 512 blanks through, and there are 512 slots. -/
theorem not_command_fits_toy :
    ¬ ∀ c, (server toy).Reachable (Config.init []) c → ∀ i r w e, c.row? i = some r →
      SendsPlaintext toy w r (53 :: e) → Admissible (53 :: e) →
      ∃ args, Lexer.lex e (List.replicate Executor.slots []) space = .ok args := by
  obtain ⟨steps, c, r, hplay, hr, hdone, hinterval, -⟩ := Toy.exists_ready
  have hsends := Toy.sendsPlaintext (d := 53 :: List.replicate 512 space) hdone hinterval
    (by rw [List.length_cons, List.length_replicate]; omega)
  intro hall
  have hargs := hall c (run_of_play hplay).reachable 0 r _ _ hr hsends
    ⟨by decide +kernel, by rw [List.length_cons, List.length_replicate]; omega⟩
  rw [lex_slots_isOk, List.count_replicate_self] at hargs
  exact absurd hargs (by decide)

end OpenSimp
