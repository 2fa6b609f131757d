import OpenSimp.Clients.Window

/-!
# The program of the Rust client

`main` of the Rust client as the server and the user drive it. `Message::Login` answers two messages
of the server, whatever they are, and takes the third for its key. From then on the receive loop
shows every packet, and `Message::SendMessage` sends what is typed.
-/

namespace OpenSimp.Rust

open Bytes

/-- The user of a client, the client's key pair and what its crates make of numbers and keys. -/
structure User where
  uname : Bytes
  passwd : Bytes
  modulus : ℤ
  /-- `pub_key.n()`, as it is printed. -/
  publicKey : Bytes
  /-- `BigUint::from_str`. -/
  bigUint : Bytes → Option ℤ
  /-- Whether `RsaPublicKey::new` takes a modulus with the exponent 65537. -/
  rsaPublicKey : ℤ → Bool
  /-- `RsaPublicKey::encrypt`, which draws the padding. -/
  rsaEncrypt : ℤ → Bytes → Option (Bytes → Bytes)
  /-- `RsaPrivateKey::decrypt` with the client's private key. -/
  rsaDecrypt : Bytes → Option Bytes
  /-- `faster_hex::hex_decode`. -/
  hexDecode : Bytes → Option Bytes

/-- What a client waits for: `Message::Login` for the server's public key, for "spb" and for the AES
key, and the receive loop for packets. -/
inductive Status where
  | login
  | spb
  | aes
  | running (key : Bytes)
  | quit
  deriving DecidableEq

structure Client where
  status : Status
  /-- The length of the buffer for the next read. -/
  room : ℕ
  uwuify : Bool
  /-- What has been inserted into the text box. -/
  textbox : List Bytes

/-- A client that has connected. -/
def Client.init : Client where
  status := .login
  room := 4096
  uwuify := false
  textbox := []

section Program

variable (L : Library) (user : User)

/-- `network::make_rsa_pubkey` with the exponent 65537: `none` where it panics. -/
def makeRsaPubkey (n : Bytes) : Option ℤ := do
  let last ← n.getLast?
  -- a string is only cut between two characters
  if 0x80 ≤ last then none
  else
    let modulus ← user.bigUint n.dropLast
    if user.rsaPublicKey modulus then some modulus else none

/-- What the client makes of the bytes of a read, with the padding drawn from `seed`: the client
after it, and what it has sent. `none` where it panics, or asks what to do about the connection. -/
def read (seed data : Bytes) (client : Client) : Option (Client × List Bytes) :=
  if data = [] then none
  else
    match client.status with
    | .login => do
      let buf ← fromUtf8 data
      let serverpubk ← makeRsaPubkey user buf
      let encryptedCredentials ←
        user.rsaEncrypt serverpubk (user.uname ++ [separator] ++ user.passwd)
      -- the buffer keeps the length of what has been read
      pure ({ client with status := .spb, room := data.length }, [encryptedCredentials seed])
    | .spb => some ({ client with status := .aes, room := 4096 }, [user.publicKey ++ [0]])
    | .aes => do
      let key ← user.rsaDecrypt data
      let key ← dehex user.hexDecode key
      pure ({ client with status := .running key }, [])
    | .running key => do
      let buf ← aesDecrypt L key data
      let packet ← parsePacket buf
      pure ({ client with textbox := client.textbox ++ [packet.line] }, [])
    | .quit => none

/-- `Message::SendMessage` with the nonce `nonceRnd`: the client after it, and what it has sent. -/
def submit (nonceRnd : Bytes) (message : List Char) (client : Client) :
    Option (Client × List Bytes) :=
  match client.status with
  | .running key =>
    let (uwuify, sent) := sendMessage client.uwuify message
    some ({ client with
            status := if trim message = ".leave".toList then .quit else .running key
            uwuify := uwuify
            textbox := client.textbox ++ [inserted user.uname client.uwuify message] },
      (sent.map (aesEncrypt L key nonceRnd)).toList)
  | _ => none

end Program

/-! ### Reads -/

section Reads

variable {L : Library} {user : User} {seed data : Bytes} {client client' : Client}
  {sent : List Bytes}

/-- The public key is answered with the credentials. -/
lemma read_login (hstatus : client.status = .login)
    (h : read L user seed data client = some (client', sent)) :
    ∃ n ciphertext, makeRsaPubkey user data = some n ∧
      user.rsaEncrypt n (user.uname ++ [separator] ++ user.passwd) = some ciphertext ∧
      client' = { client with status := .spb, room := data.length } ∧
      sent = [ciphertext seed] := by
  rw [read, hstatus] at h
  split_ifs at h
  obtain ⟨buf, hbuf, h⟩ := Option.bind_eq_some_iff.mp h
  rw [fromUtf8] at hbuf
  split_ifs at hbuf
  obtain rfl := Option.some.inj hbuf
  obtain ⟨n, hn, h⟩ := Option.bind_eq_some_iff.mp h
  obtain ⟨ciphertext, hct, h⟩ := Option.bind_eq_some_iff.mp h
  obtain ⟨rfl, rfl⟩ := Prod.mk.inj (Option.some.inj h)
  exact ⟨n, ciphertext, hn, hct, rfl, rfl⟩

/-- The next message, whatever it is, is answered with the client's public key. -/
lemma read_spb (hstatus : client.status = .spb)
    (h : read L user seed data client = some (client', sent)) :
    client' = { client with status := .aes, room := 4096 } ∧ sent = [user.publicKey ++ [0]] := by
  rw [read, hstatus] at h
  split_ifs at h
  cases h
  exact ⟨rfl, rfl⟩

/-- The third message is decrypted as the key. -/
lemma read_aes (hstatus : client.status = .aes)
    (h : read L user seed data client = some (client', sent)) :
    ∃ hex key, user.rsaDecrypt data = some hex ∧ user.hexDecode hex = some key ∧
      client' = { client with status := .running key } ∧ sent = [] := by
  rw [read, hstatus] at h
  split_ifs at h
  obtain ⟨hex, hhex, h⟩ := Option.bind_eq_some_iff.mp h
  obtain ⟨key, hkey, h⟩ := Option.bind_eq_some_iff.mp h
  cases h
  exact ⟨hex, key, hhex, hkey, rfl, rfl⟩

/-- A packet is shown. -/
lemma read_running {key : Bytes} (hstatus : client.status = .running key)
    (h : read L user seed data client = some (client', sent)) :
    ∃ pt packet, aesDecrypt L key data = some pt ∧ parsePacket pt = some packet ∧
      client' = { client with textbox := client.textbox ++ [packet.line] } ∧ sent = [] := by
  rw [read, hstatus] at h
  split_ifs at h
  obtain ⟨pt, hpt, h⟩ := Option.bind_eq_some_iff.mp h
  obtain ⟨packet, hpacket, h⟩ := Option.bind_eq_some_iff.mp h
  cases h
  exact ⟨pt, packet, hpt, hpacket, by rw [hstatus], rfl⟩

/-- Only a client that is running sends what is typed. -/
lemma submit_eq_some {nonceRnd : Bytes} {message : List Char}
    (h : submit L user nonceRnd message client = some (client', sent)) :
    ∃ key, client.status = .running key ∧
      client'.status = (if trim message = ".leave".toList then .quit else .running key) ∧
      client'.uwuify = (sendMessage client.uwuify message).1 ∧
      client'.textbox = client.textbox ++ [inserted user.uname client.uwuify message] ∧
      sent = ((sendMessage client.uwuify message).2.map (aesEncrypt L key nonceRnd)).toList := by
  rw [submit] at h
  split at h
  · next key hstatus =>
    cases h
    exact ⟨key, hstatus, rfl, rfl, rfl, rfl⟩
  · cases h

/-- Typing leaves the length of the read buffer as it is. -/
lemma room_of_submit {nonceRnd : Bytes} {message : List Char}
    (h : submit L user nonceRnd message client = some (client', sent)) :
    client'.room = client.room := by
  rw [submit] at h
  split at h
  · cases h
    rfl
  · cases h

end Reads

/-! ### What has been typed -/

/-- Whether texts are uwuified after some have been typed. -/
def uwuified (uwuify : Bool) (messages : List (List Char)) : Bool :=
  messages.foldl (fun uwuify message => (sendMessage uwuify message).1) uwuify

/-- What is typed by a user that has not left yet comes last. -/
lemma typing_append (uname : Bytes) {uwuify : Bool} {messages : List (List Char)}
    (hstays : ∀ message ∈ messages, trim message ≠ ".leave".toList) (message : List Char) :
    typing uname uwuify (messages ++ [message]) = typing uname uwuify messages ++
      [(inserted uname (uwuified uwuify messages) message,
        (sendMessage (uwuified uwuify messages) message).2)] := by
  induction messages generalizing uwuify with
  | nil =>
    rw [List.nil_append, typing, typing, typing, ite_self]
    rfl
  | cons first messages ih =>
    have hrest := @ih (sendMessage uwuify first).1
      fun message hmem => hstays message (List.mem_cons_of_mem _ hmem)
    rw [List.cons_append, typing, typing, if_neg (hstays first List.mem_cons_self),
      if_neg (hstays first List.mem_cons_self), List.cons_append]
    exact congrArg _ hrest

end OpenSimp.Rust
