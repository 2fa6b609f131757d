import OpenSimp.Clients.Rust

/-!
# The window of the Rust client

What `main` writes into its text box. For every packet the receive loop inserts a line, and for
every text of the input field `Message::SendMessage` inserts what is shown of it and sends a
plaintext, or only one of the two.
-/

namespace OpenSimp.Rust

open Bytes

/-! ### Packets -/

/-- The characters of a string. -/
def chars (s : Bytes) : List Char := (s.toByteArray.utf8Decode?.getD #[]).toList

/-- The line of a chat message. -/
def messageLine (username message : Bytes) : Bytes :=
  ascii "<" ++ username ++ ascii ">: '" ++ message ++ ascii "'\n"

/-- What the receive loop inserts for a packet. -/
def Packet.line : Packet → Bytes
  | .messagePacket username message => messageLine username message
  | .joinPacket notif => notif ++ ascii "\n"
  | .disconnectPacket notif => notif ++ ascii "\n"
  | .commandReplyPacket reply => ascii "[Server]: " ++ intoBytes (trim (chars reply)) ++ ascii "\n"
  | .serverDmPacket dm => ascii "[Server (DM)]: " ++ intoBytes (trim (chars dm)) ++ ascii "\n"

/-! ### The input field -/

/-- What is sent of a text that is no command. -/
def chatText (uwuify : Bool) (message : List Char) : List Char :=
  let string := message.filter (· ≠ '\n')
  if uwuify then string.map fun c => if c ∈ ['r', 'l'] then 'w' else c else string

/-- The answer to `.help`. -/
def help : Bytes :=
  ascii "[Info]:\n" ++ ascii "Client commands: .help .op .uwuify .leave\n" ++
    ascii "Server commands: do /help\n" ++
    ascii "Types of system messages: Info (from the client), Server (responses from the server)\n"

/-- What `Message::SendMessage` inserts for the text `message` of the input field. -/
def inserted (uname : Bytes) (uwuify : Bool) (message : List Char) : Bytes :=
  if message = [] then []
  else if trim message = ".help".toList then help
  else if trim message = ".op".toList then ascii "[Info]: Requested operator\n"
  else if trim message = ".uwuify".toList then
    if uwuify then ascii "[Info]: uwuifier OFF!\n" else ascii "[Info]: uwuifier ON!\n"
  else if trim message = ".leave".toList then ascii "[Info]: disconnecting...\n"
  else if message.head? = some '/' then
    let (_, command) := carCdr message
    ascii "[Info]: Sending command \"" ++ intoBytes command ++ ascii "\" \n"
  else messageLine uname (intoBytes (chatText uwuify message))

/-- The texts that a user types one after the other: what is inserted and what is sent for each,
up to the one with which the user leaves. -/
def typing (uname : Bytes) : Bool → List (List Char) → List (Bytes × Option Bytes)
  | _, [] => []
  | uwuify, message :: messages =>
    (inserted uname uwuify message, (sendMessage uwuify message).2) ::
      if trim message = ".leave".toList then []
      else typing uname (sendMessage uwuify message).1 messages

/-! ### What is typed and what is sent -/

/-- What can be sent for a text: a request for the console, a command, or a chat packet of the
message that is shown. -/
inductive Sends (uname : Bytes) (line : Bytes) : Bytes → Prop where
  | console : Sends uname line (ascii "4")
  | command (command : List Char) : Sends uname line (ascii "5" ++ intoBytes command)
  | chat (text : List Char) (hline : line = messageLine uname (intoBytes text)) :
      Sends uname line (ascii "0" ++ intoBytes text)

variable {uname d line : Bytes} {uwuify : Bool} {message : List Char}

lemma sends_of_sendMessage (h : (sendMessage uwuify message).2 = some d) :
    Sends uname (inserted uname uwuify message) d := by
  have hsend : sendMessage uwuify message =
      if message = [] then (uwuify, none)
      else if trim message = ".help".toList then (uwuify, none)
      else if trim message = ".op".toList then (uwuify, some (intoBytes "4".toList))
      else if trim message = ".uwuify".toList then (!uwuify, none)
      else if trim message = ".leave".toList then (uwuify, none)
      else if message.head? = some '/' then
        (uwuify, some (intoBytes ("5".toList ++ (carCdr message).2)))
      else (uwuify, some (intoBytes ("0".toList ++ chatText uwuify message))) := rfl
  rw [hsend] at h
  rw [inserted]
  split_ifs at h ⊢
  · cases h
    exact .console
  · cases h
    exact .command _
  · cases h
    exact .chat _ rfl

/-- What is typed is answered so, text by text. -/
lemma exists_sendMessage_of_typing {messages : List (List Char)}
    (h : (line, some d) ∈ typing uname uwuify messages) :
    ∃ uwuify, ∃ message ∈ messages, (sendMessage uwuify message).2 = some d ∧
      line = inserted uname uwuify message := by
  induction messages generalizing uwuify with
  | nil => cases h
  | cons message messages ih =>
    rw [typing] at h
    rcases List.mem_cons.mp h with h | h
    · obtain ⟨rfl, hd⟩ := Prod.mk.inj h
      exact ⟨uwuify, message, List.mem_cons_self, hd.symm, rfl⟩
    · split_ifs at h
      · cases h
      · obtain ⟨uwuify, message', hmem, hsent⟩ := ih h
        exact ⟨uwuify, message', List.mem_cons_of_mem _ hmem, hsent⟩

/-- What is sent is text, and has a NUL only if one was typed. -/
lemma exists_intoBytes_of_sendMessage (h : (sendMessage uwuify message).2 = some d) :
    ∃ s, d = intoBytes s ∧ (Char.ofNat 0 ∉ message → Char.ofNat 0 ∉ s) := by
  have hcons : ∀ {c : Char} {s : List Char}, c ≠ Char.ofNat 0 →
      (Char.ofNat 0 ∉ message → Char.ofNat 0 ∉ s) →
      Char.ofNat 0 ∉ message → Char.ofNat 0 ∉ c :: s := by
    intro c s hc hs hmessage hmem
    rcases List.mem_cons.mp hmem with heq | hmem
    · exact hc heq.symm
    · exact hs hmessage hmem
  rw [sendMessage] at h
  split_ifs at h with _ _ _ _ _ hslash huwuify
  · cases h
    exact ⟨_, rfl, fun _ => by decide⟩
  · cases h
    refine ⟨_, rfl, hcons (by decide) ?_⟩
    cases message with
    | nil => exact id
    | cons c s => exact fun hmessage hmem => hmessage (List.mem_cons_of_mem _ hmem)
  · cases h
    refine ⟨_, rfl, hcons (by decide) fun hmessage hmem => ?_⟩
    obtain ⟨c, hc, heq⟩ := List.mem_map.mp hmem
    split_ifs at heq
    · exact absurd heq (by decide)
    · exact hmessage (heq ▸ (List.mem_filter.mp hc).1)
  · cases h
    refine ⟨_, rfl, hcons (by decide) fun hmessage hmem => ?_⟩
    exact hmessage (List.mem_filter.mp hmem).1

lemma nul_not_mem_intoBytes {s : List Char} (h : Char.ofNat 0 ∉ s) : (0 : Byte) ∉ intoBytes s := by
  intro hmem
  obtain ⟨c, hc, hbyte⟩ := List.mem_flatMap.mp hmem
  have hzero : c.toNat = 0 := Utf8.ascii_mem_utf8EncodeChar (by decide) hbyte
  rw [← c.ofNat_toNat, hzero] at hc
  exact h hc

end OpenSimp.Rust
