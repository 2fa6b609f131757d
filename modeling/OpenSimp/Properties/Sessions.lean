import OpenSimp.Properties.Handshakes

/-!
# Sessions

A `Session` is the server, one client on one of the server's connections, and the messages under way
between them; the other connections are free to do anything. What the client is stays open: it runs
a `Program`. The steps of the server alone are `serverSteps`, which are a run of the server. As long
as no `msg` command addresses a client that is still exchanging keys, the login of either client of
the repository goes through the phases of `Login`.
-/

namespace OpenSimp

open Bytes FaultState System

/-- The bytes that a client reads of a packet, encrypted with the nonce `iv`. -/
def Packet.wire (L : Library) (iv : Bytes) : Packet → Option Bytes
  | .clear bytes => some bytes
  | .sealed plaintext => Cryptography.encrypt L iv plaintext serverKey

/-- A poll of the connection takes the next message that is under way to the server, or finds that
the client has left. -/
inductive Poll.Takes (left : Prop) (toServer : List Bytes) : Poll → List Bytes → Prop where
  | nothing : Takes left toServer .nothing toServer
  | read {data : Bytes} {rest : List Bytes} (h : toServer = data :: rest) :
      Takes left toServer (.read data) rest
  | closed (hleft : left) (h : toServer = []) : Takes left toServer .closed []

/-- What a client of type `κ` does. Its user types messages of type `ι`. -/
structure Program (κ ι : Type) where
  /-- What it makes of `data`, a packet that was encrypted with the nonce `iv`: the client after it,
  and what it sends. `none` where it does not go on. -/
  read (iv seed data : Bytes) (client : κ) : Option (κ × List Bytes)
  /-- The same for a message that is typed. -/
  submit (nonceRnd : Bytes) (message : ι) (client : κ) : Option (κ × List Bytes)
  /-- Whether it has closed the connection. -/
  quit : κ → Bool

/-- A client, the messages under way in either direction, and all that the client has sent, has read
and was typed so far. -/
structure Peer (κ ι : Type) where
  client : κ
  toClient : List Packet
  toServer : List Bytes
  sent : List Bytes
  received : List Packet
  typed : List ι

/-- The server with a client. -/
structure Session (κ ι : Type) extends Peer κ ι where
  server : Config

variable {κ ι : Type}

def Peer.init (client : κ) : Peer κ ι where
  client := client
  toClient := []
  toServer := []
  sent := []
  received := []
  typed := []

namespace Session

/-- What happens next in a session: an event of the server, a read of the client, or a message of
its user. -/
inductive Action (ι : Type) where
  | server (e : Event)
  | reads (iv seed : Bytes)
  | types (nonceRnd : Bytes) (message : ι)

def init (client : κ) (userdata : Bytes) : Session κ ι := ⟨Peer.init client, Config.init userdata⟩

/-- The steps of a session whose client is on the connection `n`. A read returns one whole
message. -/
inductive Step (L : Library) (P : Program κ ι) (n : ℕ) (s : Session κ ι) :
    Action ι → Obs → Session κ ι → Prop where
  | server {e : Event} {o : Obs} {c : Config} {toServer : List Bytes}
      (hstep : (OpenSimp.server L).step s.server e o c)
      (htakes : (s.server.pollOf n e).Takes (P.quit s.client) s.toServer toServer) :
      Step L P n s (.server e) o
        { s with
          server := c
          toClient := s.toClient ++ sentOn n ⟨s.server, e, o, c⟩
          toServer := toServer }
  | reads {iv seed data : Bytes} {packet : Packet} {toClient : List Packet} {client : κ}
      {sent : List Bytes} (hpacket : s.toClient = packet :: toClient)
      (hdata : packet.wire L iv = some data)
      (hclient : P.read iv seed data s.client = some (client, sent)) :
      Step L P n s (.reads iv seed) ⟨[], false, false⟩
        { s with
          client := client
          toClient := toClient
          toServer := s.toServer ++ sent
          sent := s.sent ++ sent
          received := s.received ++ [packet] }
  | types {nonceRnd : Bytes} {message : ι} {client : κ} {sent : List Bytes}
      (hclient : P.submit nonceRnd message s.client = some (client, sent)) :
      Step L P n s (.types nonceRnd message) ⟨[], false, false⟩
        { s with
          client := client
          toServer := s.toServer ++ sent
          sent := s.sent ++ sent
          typed := s.typed ++ [message] }

/-- The server in a session. -/
def serverView : View (Session κ ι) (Action ι) Config Event where
  state := Session.server
  event
    | .server e => some e
    | _ => none

end Session

/-- The server with a client that runs `P` on the connection `n`. -/
def session (L : Library) (P : Program κ ι) (n : ℕ) :
    System (Session κ ι) (Session.Action ι) Obs :=
  ⟨Session.Step L P n⟩

/-- The server's part in some steps of a session. -/
def serverSteps (steps : List (Step (Session κ ι) (Session.Action ι) Obs)) :
    List (Step Config Event Obs) :=
  Session.serverView.steps steps

/-! ### Messages for the server -/

namespace Poll.Takes

variable {left : Prop} {poll : Poll} {toServer rest : List Bytes}

/-- Without a message under way nothing can be read. -/
lemma nil (hleft : ¬ left) (h : poll.Takes left [] rest) : poll = .nothing ∧ rest = [] := by
  cases h with
  | nothing => exact ⟨rfl, rfl⟩
  | read hread => cases hread
  | closed hquit => exact absurd hquit hleft

/-- The only message under way is the one that is read. -/
lemma read_inv {data : Bytes} (hlength : toServer.length ≤ 1)
    (h : (Poll.read data).Takes left toServer rest) : toServer = [data] ∧ rest = [] := by
  cases h with
  | read hread =>
    rw [hread, List.length_cons] at hlength
    have hnil : rest = [] := List.length_eq_zero_iff.mp (by omega)
    exact ⟨hnil ▸ hread, hnil⟩

lemma suffix (h : poll.Takes left toServer rest) : rest <:+ toServer := by
  cases h with
  | nothing => exact List.suffix_rfl
  | read hread => exact hread ▸ List.suffix_cons _ _
  | closed hquit hnil => exact List.nil_suffix

/-- What is not read from a client that has not left waits on. -/
lemma ne_nil (h : poll.Takes left toServer rest) (hleft : ¬ left) (hne : toServer ≠ [])
    (hread : ∀ data, poll ≠ .read data) : rest ≠ [] := by
  cases h with
  | nothing => exact hne
  | read => exact absurd rfl (hread _)
  | closed hquit => exact absurd hquit hleft

lemma data (h : poll.Takes left toServer rest) : poll.data ++ rest = toServer := by
  cases h with
  | nothing => rfl
  | read hread => exact hread.symm
  | closed hquit hnil => exact hnil.symm

end Poll.Takes

/-! ### Logins -/

/-- What a client that logs in waits for: the server's public key, then the request for its own key,
then the AES key. -/
inductive Awaited where
  | publicKey
  | keyRequest
  | aesKey

/-- How far the login of a client is whose public key `n` is sent as `pubkey`: the stage of the
server, what the client waits for, and the messages under way. -/
inductive Login (L : Library) (n : ℤ) (pubkey : Bytes) :
    Stage → Awaited → List Packet → List Bytes → Prop where
  | before : Login L n pubkey .unaccepted .publicKey [] []
  | greeted : Login L n pubkey (.present .undone) .publicKey [greeting L] []
  | authenticating {toServer : List Bytes} (hlength : toServer.length ≤ 1) :
      Login L n pubkey (.present .undone) .keyRequest [] toServer
  | asked : Login L n pubkey (.present .keyReceived) .keyRequest [keyRequest] []
  | answering {toServer : List Bytes} (hlength : toServer.length ≤ 1)
      (hpubkey : ∀ data ∈ toServer, data = pubkey) :
      Login L n pubkey (.present .keyReceived) .aesKey [] toServer
  | keyed {seed : Bytes} {ciphertext : Bytes → Bytes} {packets : List Packet}
      (hct : L.rsaEncrypt n serverKey = some ciphertext)
      (hsealed : ∀ packet ∈ packets, packet.Sealed) :
      Login L n pubkey (.present .done) .aesKey (.clear (ciphertext seed) :: packets) []
  | dropped {awaited : Awaited} {toServer : List Bytes} (hawaited : awaited ≠ .publicKey) :
      Login L n pubkey .gone awaited [] toServer

section Login

variable {L : Library} {n : ℤ} {pubkey : Bytes} {stage stage' : Stage} {awaited : Awaited}
  {poll : Poll} {packets toClient : List Packet} {toServer rest : List Bytes} {left : Prop}

/-- A client that logs in still does so after a move of the server. -/
lemma Login.moves (hn : ∀ m, KeyText L pubkey m → m = n)
    (h : Login L n pubkey stage awaited toClient toServer)
    (hmoves : stage.Moves L poll packets stage') (hleft : ¬ left)
    (htakes : poll.Takes left toServer rest) :
    Login L n pubkey stage' awaited (toClient ++ packets) rest := by
  cases h with
  | before =>
    obtain ⟨rfl, rfl⟩ := htakes.nil hleft
    cases hmoves with
    | stays => exact .before
    | accepts => exact .greeted
  | greeted =>
    obtain ⟨rfl, rfl⟩ := htakes.nil hleft
    cases hmoves with
    | stays => exact .greeted
    | drops hpoll => exact absurd rfl hpoll
  | authenticating hlength =>
    cases hmoves with
    | stays => exact .authenticating (htakes.suffix.length_le.trans hlength)
    | asks =>
      obtain ⟨-, rfl⟩ := htakes.read_inv hlength
      exact .asked
    | drops hpoll hsealed hdone =>
      rcases hdone with hdone | rfl
      · cases hdone
      · exact .dropped (by simp)
  | asked =>
    obtain ⟨rfl, rfl⟩ := htakes.nil hleft
    cases hmoves with
    | stays => exact .asked
    | drops hpoll => exact absurd rfl hpoll
  | answering hlength hpubkey =>
    cases hmoves with
    | stays =>
      exact .answering (htakes.suffix.length_le.trans hlength)
        fun data hdata => hpubkey data (htakes.suffix.subset hdata)
    | @answers data _ _ _ htext hct =>
      obtain ⟨rfl, rfl⟩ := htakes.read_inv hlength
      rw [hpubkey data (List.mem_singleton_self _)] at htext
      rw [List.nil_append]
      exact .keyed (hn _ htext ▸ hct) fun packet hpacket => absurd hpacket List.not_mem_nil
    | drops hpoll hsealed hdone =>
      rcases hdone with hdone | rfl
      · cases hdone
      · exact .dropped (by simp)
  | keyed hct hsealed =>
    obtain ⟨rfl, rfl⟩ := htakes.nil hleft
    cases hmoves with
    | stays =>
      rw [List.append_nil]
      exact .keyed hct hsealed
    | relays hpackets =>
      refine .keyed hct fun packet hpacket => ?_
      exact (List.mem_append.mp hpacket).elim (hsealed packet) (hpackets packet)
    | drops hpoll => exact absurd rfl hpoll
  | dropped hawaited =>
    cases hmoves
    exact .dropped hawaited

end Login

/-! ### The server's part -/

section Server

variable {L : Library} {P : Program κ ι} {n : ℕ} {client : κ} {userdata : Bytes} {s : Session κ ι}
  {steps : List (Step (Session κ ι) (Session.Action ι) Obs)}

lemma serverSteps_append (before after : List (Step (Session κ ι) (Session.Action ι) Obs)) :
    serverSteps (before ++ after) = serverSteps before ++ serverSteps after :=
  View.steps_append _ _

/-- The server's part in a run of a session is a run of the server. -/
lemma server_run (h : (session L P n).Run (Session.init client userdata) steps s) :
    (server L).Run (Config.init userdata) (serverSteps steps) s.server := by
  refine h.view (V := Session.serverView) ?_ ?_
  · intro s e o s' e' hstep he
    cases hstep with
    | server hstep =>
      cases he
      exact hstep
    | reads | types => cases he
  · intro s e o s' hstep he
    cases hstep with
    | server => cases he
    | reads | types => rfl

end Server

/-! ### Playing a session -/

/-- What is left for the server after a poll of the connection, if the poll is possible. -/
def Poll.take (left : Bool) (toServer : List Bytes) : Poll → Option (List Bytes)
  | .nothing => some toServer
  | .read data =>
    match toServer with
    | message :: rest => if message = data then some rest else none
    | [] => none
  | .closed => if left ∧ toServer = [] then some [] else none

lemma Poll.takes_of_take {left : Bool} {poll : Poll} {toServer rest : List Bytes}
    (h : poll.take left toServer = some rest) : poll.Takes left toServer rest := by
  cases poll with
  | nothing =>
    cases h
    exact .nothing
  | closed =>
    rw [take] at h
    split_ifs at h with hquit
    cases h
    exact .closed hquit.1 hquit.2
  | read data =>
    cases toServer with
    | nil => cases h
    | cons message rest' =>
      rw [take] at h
      split_ifs at h with hmessage
      cases h
      exact .read (hmessage ▸ rfl)

namespace Session

/-- Takes one step of a session, if it is possible. -/
def fire (L : Library) (P : Program κ ι) (n : ℕ) (s : Session κ ι) :
    Action ι → Option (System.Step (Session κ ι) (Action ι) Obs)
  | .server e => do
    let st ← OpenSimp.fire L s.server e
    let toServer ← (s.server.pollOf n e).take (P.quit s.client) s.toServer
    pure ⟨s, .server e, st.obs,
      { s with server := st.post, toClient := s.toClient ++ sentOn n st, toServer := toServer }⟩
  | .reads iv seed =>
    match s.toClient with
    | [] => none
    | packet :: toClient => do
      let data ← packet.wire L iv
      let (client, sent) ← P.read iv seed data s.client
      pure ⟨s, .reads iv seed, ⟨[], false, false⟩,
        { s with
          client := client
          toClient := toClient
          toServer := s.toServer ++ sent
          sent := s.sent ++ sent
          received := s.received ++ [packet] }⟩
  | .types nonceRnd message => do
    let (client, sent) ← P.submit nonceRnd message s.client
    pure ⟨s, .types nonceRnd message, ⟨[], false, false⟩,
      { s with
        client := client
        toServer := s.toServer ++ sent
        sent := s.sent ++ sent
        typed := s.typed ++ [message] }⟩

def play (L : Library) (P : Program κ ι) (n : ℕ) : Session κ ι → List (Action ι) →
    Option (List (System.Step (Session κ ι) (Action ι) Obs) × Session κ ι) :=
  System.play (fire L P n)

variable {L : Library} {P : Program κ ι} {n : ℕ} {s s' : Session κ ι} {action : Action ι}

lemma fire_eq_some {st : System.Step (Session κ ι) (Action ι) Obs}
    (h : fire L P n s action = some st) :
    st.pre = s ∧ st.event = action ∧ (session L P n).step s action st.obs st.post := by
  cases action with
  | server e =>
    obtain ⟨st', hst', h⟩ := Option.bind_eq_some_iff.mp h
    obtain ⟨toServer, htake, h⟩ := Option.bind_eq_some_iff.mp h
    obtain ⟨hpre, hevent, hstep⟩ := OpenSimp.fire_eq_some hst'
    obtain ⟨pre, e', o, post⟩ := st'
    cases hpre
    cases hevent
    cases h
    exact ⟨rfl, rfl, .server hstep (Poll.takes_of_take htake)⟩
  | reads iv seed =>
    rw [fire] at h
    cases htoClient : s.toClient with
    | nil => rw [htoClient] at h; cases h
    | cons packet toClient =>
      rw [htoClient] at h
      obtain ⟨data, hdata, h⟩ := Option.bind_eq_some_iff.mp h
      obtain ⟨⟨client, sent⟩, hclient, h⟩ := Option.bind_eq_some_iff.mp h
      cases h
      exact ⟨rfl, rfl, .reads htoClient hdata hclient⟩
  | types nonceRnd message =>
    obtain ⟨⟨client, sent⟩, hclient, h⟩ := Option.bind_eq_some_iff.mp h
    cases h
    exact ⟨rfl, rfl, .types hclient⟩

/-- Playing a session is a run. -/
lemma run_of_play {actions : List (Action ι)}
    {steps : List (System.Step (Session κ ι) (Action ι) Obs)}
    (h : play L P n s actions = some (steps, s')) : (session L P n).Run s steps s' :=
  System.run_of_play (fun _ _ _ hfire => fire_eq_some hfire) h

end Session

namespace Toy

/-- A client reads a message. -/
def reads : Session.Action ι := .reads (List.replicate 12 0) []

/-- Whether a step handles a command. -/
def handlesCommand (L : Library) (st : System.Step Config Event Obs) : Bool :=
  match st.event with
  | .accept _ _ => false
  | .receive i w =>
    match (st.pre.row? i).map fun r => st.pre.request w r L with
    | some (.ok (.command _)) => true
    | _ => false

lemma not_intrudes_of_not_handlesCommand {L : Library} {n : ℕ}
    {steps : List (System.Step Config Event Obs)} (h : steps.any (handlesCommand L) = false) :
    ∀ st ∈ steps, ¬ st.event.Intrudes L n st.pre := by
  intro st hst hintrudes
  refine List.any_eq_false.mp h st hst ?_
  rw [handlesCommand]
  cases hevent : st.event with
  | accept p w =>
    rw [hevent] at hintrudes
    exact hintrudes.elim
  | receive i w =>
    rw [hevent] at hintrudes
    obtain ⟨r, text, -, -, -, hr, hreq, -⟩ := hintrudes
    simp only [hr, Option.map_some, hreq]

end Toy

end OpenSimp
