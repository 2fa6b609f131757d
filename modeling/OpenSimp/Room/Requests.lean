import OpenSimp.Room.Effects

/-!
# What clients ask for, and what the room does about it

`Room.request` reads a poll of a client as a `Request`; `Room.respond` is what the room becomes and
which packets go out. `Room.Refinement` shows that `receive` computes exactly this.
-/

namespace OpenSimp

open Bytes FaultState ServerNetwork

/-- What one poll of a client amounts to. -/
inductive Request where
  /-- The connection is closed. -/
  | leave
  /-- Nothing was received. -/
  | idle
  | spam
  /-- Credentials that cannot be decrypted, or with an empty field. -/
  | garbledLogin
  /-- A registered user with a password that is not the stored one. -/
  | wrongPassword
  | login (uname : Bytes)
  | register (uname passwd : Bytes)
  | key (n : ℤ)
  /-- A packet that cannot be decrypted. -/
  | unreadable
  /-- A packet with a separator, too long a packet, or one of an unknown type. -/
  | illegal
  | chat (text : Bytes)
  | rename (clientid : Bytes)
  | console
  | command (text : Bytes)
  deriving DecidableEq

/-! ### Reading a request -/

/-- The request of the credentials `uname` and `passwd` when `userdata.yml` is `text`. -/
def requestOfCredentials (L : Library) (text uname passwd : Bytes) : Except Fault Request :=
  match L.yamlLoad text with
  | none => .error .exception
  | some config => do
    let user ← config.subscript uname
    if user.isDefined then
      let password ← user.subscript (ascii "password")
      if password.isDefined then
        let password ← password.asString
        if password = passwd then pure (.login uname) else pure .wrongPassword
      else
        pure .wrongPassword
    else
      pure (.register uname passwd)

/-- The request of an `Undone` client. -/
def requestOfLogin (L : Library) (text data : Bytes) : Except Fault Request :=
  match L.rsaDecrypt data with
  | none => .ok .garbledLogin
  | some decstr =>
    let c := credentials decstr
    if c.uname = [] ∨ c.passwd = [] then .ok .garbledLogin
    else requestOfCredentials L text c.uname c.passwd

/-- The request of a `KeyReceived` client. -/
def requestOfKey (L : Library) (data : Bytes) : Except Fault Request :=
  match ofBuffer maxRawData data with
  | none => .error .overrun
  | some text =>
    match L.bigInt text with
    | none => .error .exception
    | some n => if L.rsaPublicKey n then .ok (.key n) else .error .exception

/-- The request of a decrypted packet. -/
def requestOfPlaintext (d : Bytes) : Request :=
  if ¬ check d then .illegal
  else if d.length ≥ 4096 then .illegal
  else if startsWith 48 d then .chat (d.drop 1)
  else if startsWith 51 d then .rename (d.drop 2)
  else if startsWith 52 d then .console
  else if startsWith 53 d then .command (d.drop 1)
  else .illegal

/-- The request of a client past the handshake. -/
def requestOfPacket (L : Library) (data : Bytes) : Except Fault Request :=
  match Cryptography.decrypt L data serverKey with
  | .error .exception => .ok .unreadable
  | .error fault => .error fault
  | .ok (_, d) => .ok (requestOfPlaintext d)

/-- The request of the bytes a client sent. -/
def Room.requestOfData (R : Room) (L : Library) (data : Bytes) (r : Row) : Except Fault Request :=
  if r.status = .undone then requestOfLogin L R.userdata data
  else if r.status = .keyReceived then requestOfKey L data
  else requestOfPacket L data

/-- The request of one poll of the client `r`. -/
def Room.request (R : Room) (L : Library) (w : World) (r : Row) : Except Fault Request :=
  if w.status = .disconnected then .ok .leave
  else if w.data = [] then .ok .idle
  else if r.status = .done ∧ asMilliseconds (w.now - r.interval) ≤ 20 then .ok .spam
  else R.requestOfData L w.data r

/-! ### Answering it -/

namespace Room

variable (R : Room)

def rename (i : ℕ) (clientid : Bytes) : Room := R.modify i fun p => { p with clientid := clientid }

def setStatus (i : ℕ) (status : AuthStatus) : Room :=
  R.modify i fun p => { p with status := status }

def restarted (i : ℕ) (now : ℕ) : Room := R.modify i fun p => { p with interval := now }

end Room

/-- An alias as `nick` wants it. -/
def ValidAlias (a : Bytes) : Prop := 3 ≤ a.length ∧ a.length ≤ 16 ∧ a.all isAliasChar = true

instance (a : Bytes) : Decidable (ValidAlias a) := by unfold ValidAlias; infer_instance

lemma isAliasChar_not_blank {c : Byte} (hc : isAliasChar c = true) :
    c ∉ ([32, 9, 10, 11, 12, 13] : Bytes) := by
  intro hmem
  simp only [List.mem_cons, List.not_mem_nil, or_false] at hmem
  rcases hmem with rfl | rfl | rfl | rfl | rfl | rfl <;> revert hc <;> decide

lemma ValidAlias.mem {a : Bytes} (ha : ValidAlias a) {c : Byte} (hc : c ∈ a) :
    isAliasChar c = true := List.all_eq_true.mp ha.2.2 c hc

lemma ValidAlias.nul_not_mem {a : Bytes} (ha : ValidAlias a) : (0 : Byte) ∉ a := by
  intro h
  have := ha.mem h
  revert this
  decide

lemma ValidAlias.separator_not_mem {a : Bytes} (ha : ValidAlias a) : separator ∉ a := by
  intro h
  have := ha.mem h
  revert this
  decide

lemma ValidAlias.ne_nil {a : Bytes} (ha : ValidAlias a) : a ≠ [] := by
  rintro rfl
  exact absurd ha.1 (by decide)

/-- The whitespace test of `nick` never applies to an alias it has accepted so far. -/
lemma ValidAlias.not_blank {a : Bytes} (ha : ValidAlias a) : isBlank a = false := by
  obtain ⟨c, hc⟩ := List.exists_mem_of_ne_nil a ha.ne_nil
  rw [isBlank, List.all_eq_false]
  exact ⟨c, hc, by simpa using isAliasChar_not_blank (ha.mem hc)⟩

/-- The alias fits the buffer `nick` copies it to. -/
lemma ValidAlias.strcpy {a : Bytes} (ha : ValidAlias a) : strcpy 256 a = some a := by
  have hlen : a.length < 256 := lt_of_le_of_lt ha.2.1 (by decide)
  rw [Bytes.strcpy, cstr_of_nul_not_mem ha.nul_not_mem, if_pos hlen]

/-- `nick` accepts the alias `a`. -/
def Room.Admits (R : Room) (a : Bytes) : Prop := a ∉ R.rows.map (·.clientid) ∧ ValidAlias a

instance (R : Room) (a : Bytes) : Decidable (R.Admits a) := by unfold Room.Admits; infer_instance

/-- The chat packet of the client `clientid`. -/
def chatPacket (text clientid : Bytes) : Bytes :=
  ascii "0" ++ [separator] ++ text ++ [separator] ++ clientid

/-- The effects of a successful `nick`. -/
def Room.joinActs (R : Room) (w : World) (i : ℕ) (r : Row) (a : Bytes) : List Act :=
  broadcastActs w (R.rename i a).rows
    (joinMessage a ((R.rename i a).rows.map (·.clientid))) (w.peer r.sock)

/-- The text of `userdata.yml` after `registerUser`. -/
def registeredText (L : Library) (text uname passwd : Bytes) : Bytes :=
  (getlines text).flatMap (· ++ [newline]) ++ cstr (L.yamlEmit uname passwd)

def helpReply (args : List Bytes) : Bytes :=
  if args.getD 1 [] = [] then ascii "Avail commands: /help /plugins /msg "
  else ascii "Multiple args is not supported by the command: help"

/-- The effects of `msg`. Each row with the addressed alias makes the first of them get a copy. -/
def Room.msgActs (R : Room) (r : Row) (args : List Bytes) : List Act :=
  let x := args.getD 1 []
  if x = sentinel then []
  else if x = r.clientid then
    [.sent r.sock (directPacket (ascii "You cannot send message to yourself"))]
  else
    match R.rows.find? (·.clientid = x) with
    | none => []
    | some target => List.replicate ((R.rows.map (·.clientid)).count x)
        (.sent target.sock (directPacket (directText x r.clientid args)))

/-- The effects of `Executor::iterate`. -/
def Room.commandActs (R : Room) (r : Row) (text : Bytes) : Except Fault (List Act) := do
  let args ← Lexer.lex text (List.replicate Executor.slots []) space
  if args.getD 0 [] = ascii "help" then
    pure [.sent r.sock (directPacket (helpReply args))]
  else if args.getD 0 [] = ascii "plugins" then
    pure [.sent r.sock (directPacket (ascii "Plugins (0): "))]
  else if args.getD 0 [] = ascii "msg" then
    pure (R.msgActs r args)
  else
    pure [.sent r.sock (directPacket
      (ascii "Command " ++ text ++ ascii " was not found. Type /help to get help."))]

/-- The room after an event, its effects, the row it erased, and whether a deleted socket was
dereferenced. -/
structure Reply where
  room : Room
  acts : List Act
  gone : Option ℕ
  useAfterFree : Bool

namespace Reply

/-- The run-time state at the end of the event. -/
def machine (q : Reply) : Machine where
  server := q.room.server
  live := q.room.live
  owners := q.room.owners
  accepted := q.room.accepted
  gone := q.gone
  useAfterFree := q.useAfterFree
  staleIndex := false
  acts := q.acts

/-- The outcome of an event, as the code's. -/
def result (q : Except Fault Reply) : Except Fault (Unit × Machine) :=
  q.map fun q => ((), q.machine)

/-- An event that erases no row. -/
def keep (R : Room) (acts : List Act) : Reply := ⟨R, acts, none, false⟩

/-- An event that erases row `i`, which is `r`. -/
def drop (R : Room) (w : World) (i : ℕ) (r : Row) (reason : DisconnectReason) (acts : List Act) :
    Reply :=
  ⟨R.disconnect i r, acts ++ R.disconnectActs w i r reason, some i, false⟩

end Reply

namespace Room

variable (R : Room) (L : Library) (w : World) (i : ℕ) (r : Row)

/-- The room once the clock of a `Done` client was restarted. -/
def polled : Room :=
  if w.status ≠ .disconnected ∧ w.data ≠ [] ∧ r.status = .done then R.restarted i w.now else R

/-- The effects of relaying `text` to the other clients, and the room after it. -/
def relayed (text : Bytes) : Except Fault Reply :=
  match strcpy 256 text with
  | none => .error .overrun
  | some data => .ok (.keep (R.restarted i w.later) (broadcastActs w R.rows data (w.peer r.sock)))

/-- What the server does about a request of row `i`, which is `r`. -/
def respond : Request → Except Fault Reply
  | .leave => .ok (.drop R w i r .disconnectLeave [])
  | .idle => .ok (.keep R [])
  | .spam => .ok (.drop R w i r .disconnectSpam [])
  | .garbledLogin => .ok (.drop R w i r .disconnectKick [])
  | .wrongPassword => .ok { Reply.drop R w i r .disconnectKick [] with useAfterFree := true }
  | .login uname =>
    if R.Admits uname then
      .ok (.keep ((R.rename i uname).setStatus i .keyReceived)
        (R.joinActs w i r uname ++ [.sent r.sock (.clear (ascii "spb"))]))
    else .ok (.drop R w i r .disconnectKick [])
  | .register uname passwd =>
    if R.Admits uname then
      .ok (.keep (((R.rename i uname).withUserdata
          (registeredText L R.userdata uname passwd)).setStatus i .keyReceived)
        (R.joinActs w i r uname ++ [.registered uname passwd] ++
          broadcastActs w (R.rename i uname).rows
            (ascii "6" ++ [separator] ++ (ascii "Everybody welcome the new user " ++ uname))
            (w.peer r.sock) ++
          [.sent r.sock (.clear (ascii "spb"))]))
    else .ok (.drop R w i r .disconnectKick [])
  | .key n =>
    match ((R.insertKey r.sock n).keys r.sock).bind fun n => L.rsaEncrypt n serverKey with
    | none => .ok (.drop (R.insertKey r.sock n) w i r .disconnectKick [])
    | some ciphertext =>
      .ok (.keep ((R.insertKey r.sock n).setStatus i .done)
        [.sent r.sock (.clear (ciphertext w.seed))])
  | .unreadable =>
    .ok (.keep R [.sent r.sock (directPacket (ascii "Your previous message was not sent"))])
  | .illegal => .ok (.drop R w i r .disconnectKick [])
  | .chat text =>
    if isBlank (cstr text) then
      .ok (.drop R w i r .disconnectKick
        [.sent r.sock (directPacket (ascii "Stop sending empty shit."))])
    else if r.clientid = sentinel then
      .ok (.drop R w i r .disconnectUnnamed [])
    else
      R.relayed w i r (ascii "0" ++ [separator] ++ text ++ [separator] ++ r.clientid)
  | .rename clientid =>
    if R.Admits clientid then
      .ok (.keep (R.rename i clientid) (R.joinActs w i r clientid))
    else .ok (.drop R w i r .disconnectKick [])
  | .console => R.relayed w i r []
  | .command text => do
    let acts ← R.commandActs r text
    pure (.keep R acts)

end Room

/-- The row once the clock of a `Done` client was restarted. -/
def Row.polled (w : World) (r : Row) : Row :=
  if w.status ≠ .disconnected ∧ w.data ≠ [] ∧ r.status = .done then { r with interval := w.now }
  else r

/-- One poll of row `i`, which is `r`. -/
def Room.serve (R : Room) (L : Library) (w : World) (i : ℕ) (r : Row) : Except Fault Reply := do
  let request ← R.request L w r
  (R.polled w i r).respond L w i (r.polled w) request

/-- The request of a poll of the row `r`, on the server's layout. -/
def Config.request (c : Config) (w : World) (r : Row) (L : Library) : Except Fault Request :=
  (Room.init c.server.userdata).request L w r

lemma Room.config_request {R : Room} {L : Library} {w : World} {r : Row} :
    R.config.request w r L = R.request L w r := rfl

/-- A poll of a row has one request. -/
lemma Room.exists_config_request {R : Room} {L : Library} {w : World} {i : ℕ} {r : Row}
    {req : Request} {P : Row → Request → Prop} (hr : R.rows[i]? = some r)
    (hreq : R.request L w r = .ok req) :
    (∃ r' req', R.config.row? i = some r' ∧ R.config.request w r' L = .ok req' ∧ P r' req') ↔
      P r req := by
  constructor
  · rintro ⟨r', req', hr', hreq', h⟩
    rw [Room.config_row?] at hr'
    cases hr.symm.trans hr'
    cases hreq.symm.trans hreq'
    exact h
  · intro h
    exact ⟨r, req, (Room.config_row? _ i).trans hr, hreq, h⟩

end OpenSimp
