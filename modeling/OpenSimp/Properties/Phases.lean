import OpenSimp.Clients.Program
import OpenSimp.Properties.Ciphers
import OpenSimp.Properties.Sessions
import OpenSimp.Properties.Transcripts

/-!
# The Rust client with the server

A `Rust.Session` is a session whose client runs the program of the Rust client, which takes whatever
it reads third for its key, as the C++ client does. As long as no `msg` command addresses the client
while it is still exchanging keys, a session goes through the phases of `Rust.Phase`.
-/

namespace OpenSimp.Rust

open Bytes FaultState System ServerNetwork
open scoped List

/-- The Rust client. A read returns one whole message, for which the client's buffer has room. -/
def program (L : Library) (user : User) : Program Client (List Char) where
  read iv seed data client :=
    if iv.length = 12 ∧ data.length ≤ client.room then read L user seed data client else none
  submit nonceRnd message client :=
    if nonceRnd.length = 12 then submit L user nonceRnd message client else none
  quit client := client.status = .quit

abbrev Peer : Type := OpenSimp.Peer Client (List Char)

abbrev Session : Type := OpenSimp.Session Client (List Char)

namespace Session

abbrev Action : Type := OpenSimp.Session.Action (List Char)

def init (userdata : Bytes) : Session := OpenSimp.Session.init Client.init userdata

end Session

/-- The server with a Rust client on the connection `n`. -/
def session (L : Library) (user : User) (n : ℕ) : System Session Session.Action Obs :=
  OpenSimp.session L (program L user) n

variable {L : Library} {user : User} {n : ℕ}

section Program

variable {client : Client} {result : Client × List Bytes}

lemma program_read_iff {iv seed data : Bytes} :
    (program L user).read iv seed data client = some result ↔
      iv.length = 12 ∧ data.length ≤ client.room ∧ read L user seed data client = some result := by
  change (if iv.length = 12 ∧ data.length ≤ client.room then _ else none) = some result ↔ _
  rw [Option.ite_none_right_eq_some, and_assoc]

lemma program_submit_iff {nonceRnd : Bytes} {message : List Char} :
    (program L user).submit nonceRnd message client = some result ↔
      nonceRnd.length = 12 ∧ submit L user nonceRnd message client = some result := by
  change (if nonceRnd.length = 12 then _ else none) = some result ↔ _
  rw [Option.ite_none_right_eq_some]

end Program

/-- What the client relies on. It reads the server's public key, under which its credentials can be
encrypted, the server reads the text of its own key as the key, and its private key decrypts what
is encrypted under that key. -/
structure User.Lawful (user : User) (L : Library) : Prop where
  nul_not_mem : (0 : Byte) ∉ user.publicKey
  bigInt : L.bigInt user.publicKey = some user.modulus
  decrypts : ∀ {plaintext : Bytes} {ciphertext : Bytes → Bytes} (seed : Bytes),
    L.rsaEncrypt user.modulus plaintext = some ciphertext →
    user.rsaDecrypt (ciphertext seed) = some plaintext
  valid : Utf8.Valid L.publicKey
  encrypts : ∃ n ciphertext, user.bigUint L.publicKey = some n ∧ user.rsaPublicKey n = true ∧
    user.rsaEncrypt n (credits user.uname user.passwd) = some ciphertext ∧
    ∀ seed, L.rsaDecrypt (ciphertext seed) = some (credits user.uname user.passwd)

/-- The server reads no other key than the client's. -/
lemma User.Lawful.eq_modulus (hL : user.Lawful L) {m : ℤ}
    (h : KeyText L (user.publicKey ++ [0]) m) : m = user.modulus := by
  refine h.eq_of_bigInt ?_ hL.bigInt
  rw [cstr_append hL.nul_not_mem]
  simp [cstr]

/-- The client reads the server's public key. -/
lemma User.Lawful.exists_makeRsaPubkey (hL : user.Lawful L) : ∃ n ciphertext,
    makeRsaPubkey user (L.publicKey ++ [0]) = some n ∧
      user.rsaEncrypt n (credits user.uname user.passwd) = some ciphertext ∧
      ∀ seed, L.rsaDecrypt (ciphertext seed) = some (credits user.uname user.passwd) := by
  obtain ⟨n, ciphertext, hn, hpublic, hct, hdec⟩ := hL.encrypts
  refine ⟨n, ciphertext, ?_, hct, hdec⟩
  rw [makeRsaPubkey, List.getLast?_concat, List.dropLast_concat]
  show (user.bigUint L.publicKey).bind (fun n => if user.rsaPublicKey n then some n else none) = _
  rw [hn, Option.bind_some, if_pos hpublic]

/-! ### Phases of a session -/

/-- The status of a client that logs in. -/
def Status.awaiting : Awaited → Status
  | .publicKey => .login
  | .keyRequest => .spb
  | .aesKey => .aes

lemma Status.awaiting_ne_running (awaited : Awaited) (key : Bytes) :
    awaiting awaited ≠ .running key := by
  cases awaited <;> simp [awaiting]

lemma Status.awaiting_ne_quit (awaited : Awaited) : awaiting awaited ≠ .quit := by
  cases awaited <;> simp [awaiting]

/-- How far a session is: the client logs in, is at work, or has left. -/
inductive Phase (L : Library) (user : User) :
    Stage → Status → List OpenSimp.Packet → List Bytes → Prop where
  | login {stage : Stage} {awaited : Awaited} {status : Status} {toClient : List OpenSimp.Packet}
      {toServer : List Bytes}
      (h : Login L user.modulus (user.publicKey ++ [0]) stage awaited toClient toServer)
      (hstatus : status = .awaiting awaited) : Phase L user stage status toClient toServer
  | running {stage : Stage} {key : Bytes} {toClient : List OpenSimp.Packet} {toServer : List Bytes}
      (hstage : stage = .present .done ∨ stage = .gone) (hkey : L.hexDecode serverKey = some key)
      (hsealed : ∀ packet ∈ toClient, packet.Sealed) :
      Phase L user stage (.running key) toClient toServer
  | left {stage : Stage} {toClient : List OpenSimp.Packet} {toServer : List Bytes}
      (hstage : stage = .present .done ∨ stage = .gone) :
      Phase L user stage .quit toClient toServer

section Phases

variable {s : Session} {stage stage' : Stage} {status : Status} {poll : Poll}
  {packets toClient : List OpenSimp.Packet} {toServer rest : List Bytes}

/-- A move of the server takes the session to a phase. -/
lemma Phase.moves (hL : user.Lawful L)
    (h : Phase L user stage status toClient toServer)
    (hmoves : stage.Moves L poll packets stage') {left : Prop} (hleft : left → status = .quit)
    (htakes : poll.Takes left toServer rest) :
    Phase L user stage' status (toClient ++ packets) rest := by
  cases h with
  | login h hstatus =>
    have hnot : ¬ left := fun hquit => Status.awaiting_ne_quit _ (hstatus.symm.trans (hleft hquit))
    exact .login (h.moves (fun m => hL.eq_modulus) hmoves hnot htakes) hstatus
  | running hstage hkey hsealed =>
    have happend : (∀ packet ∈ packets, packet.Sealed) →
        ∀ packet ∈ toClient ++ packets, packet.Sealed := fun hpackets packet hpacket =>
      (List.mem_append.mp hpacket).elim (hsealed packet) (hpackets packet)
    cases hmoves with
    | stays => exact .running hstage hkey (happend fun _ h => absurd h List.not_mem_nil)
    | relays hpackets => exact .running (.inl rfl) hkey (happend hpackets)
    | drops hpoll hpackets => exact .running (.inr rfl) hkey (happend hpackets)
    | accepts | asks | answers => rcases hstage with hstage | hstage <;> cases hstage
  | left hstage =>
    cases hmoves with
    | stays => exact .left hstage
    | relays => exact .left (.inl rfl)
    | drops => exact .left (.inr rfl)
    | accepts | asks | answers => rcases hstage with hstage | hstage <;> cases hstage

/-- The first message to a client is the greeting. -/
lemma Phase.eq_greeting {packet : OpenSimp.Packet}
    (h : Phase L user stage .login (packet :: toClient) toServer) : packet = greeting L := by
  cases h with
  | login h hlogin =>
    cases h with
    | greeted => rfl
    | asked | keyed => cases hlogin

/-- What a client that is running reads of a sealed packet. -/
lemma aesDecrypt_wire (hC : CipherLaws L user.hexDecode) {key iv data d : Bytes}
    (hkey : L.hexDecode serverKey = some key) (hlength : key.length = 32) (hiv : iv.length = 12)
    (hdata : (OpenSimp.Packet.sealed d).wire L iv = some data) :
    aesDecrypt L key data = some d := by
  have hframe : some data = some (aesEncrypt L key iv d) :=
    hdata.symm.trans (encrypt_eq_aesEncrypt hC hkey d)
  rw [Option.some.inj hframe]
  exact aesDecrypt_aesEncrypt hC hlength hiv d

/-- Both sides decode the server key. -/
lemma exists_key (hC : CipherLaws L user.hexDecode) : ∃ key, key.length = 32 ∧
    L.hexDecode serverKey = some key ∧ user.hexDecode serverKey = some key :=
  hC.key serverKey rfl Toy.serverKey_digits

/-- A read of the client takes the session to a phase. -/
lemma Phase.reads (hC : CipherLaws L user.hexDecode) (hL : user.Lawful L)
    {packet : OpenSimp.Packet} {toClient : List OpenSimp.Packet} {iv seed data : Bytes}
    {client : Client} {sent : List Bytes}
    (h : Phase L user stage s.client.status (packet :: toClient) toServer)
    (hdata : packet.wire L iv = some data)
    (hclient : read L user seed data s.client = some (client, sent)) :
    Phase L user stage client.status toClient (toServer ++ sent) := by
  generalize hstatus : s.client.status = status at h
  cases h with
  | login h hlogin =>
    subst hstatus
    cases h with
    | greeted =>
      obtain ⟨n, ciphertext, -, -, rfl, rfl⟩ := read_login hlogin hclient
      exact .login (.authenticating le_rfl) rfl
    | asked =>
      obtain ⟨rfl, rfl⟩ := read_spb hlogin hclient
      exact .login (.answering le_rfl fun data hmem => List.mem_singleton.mp hmem) rfl
    | keyed hct hsealed =>
      obtain ⟨hex, key, hhex, hkey, rfl, rfl⟩ := read_aes hlogin hclient
      cases hdata
      cases (hL.decrypts _ hct).symm.trans hhex
      obtain ⟨key', -, hserver, huser⟩ := exists_key hC
      cases huser.symm.trans hkey
      exact .running (.inl rfl) hserver hsealed
  | running hstage hkey hsealed =>
    obtain ⟨pt, packet', -, -, rfl, rfl⟩ := read_running hstatus hclient
    rw [hstatus]
    exact .running hstage hkey fun packet hpacket => hsealed packet (List.mem_cons_of_mem _ hpacket)
  | left hstage =>
    rw [read, hstatus] at hclient
    split_ifs at hclient

/-- A text of the user takes the session to a phase. -/
lemma Phase.types {nonceRnd : Bytes} {message : List Char} {client : Client} {sent : List Bytes}
    (h : Phase L user stage s.client.status s.toClient s.toServer)
    (hclient : submit L user nonceRnd message s.client = some (client, sent)) :
    Phase L user stage client.status s.toClient (s.toServer ++ sent) := by
  obtain ⟨key, hstatus, hstatus', -, -, -⟩ := submit_eq_some hclient
  rw [hstatus']
  rw [hstatus] at h
  generalize s.toClient = toClient at h ⊢
  generalize s.toServer = toServer at h ⊢
  cases h with
  | running hstage hkey hsealed =>
    split_ifs
    · exact .left hstage
    · exact .running hstage hkey hsealed
  | login _ hlogin => exact absurd hlogin.symm (Status.awaiting_ne_running _ _)

/-- Whatever is under way to a client that logs in can be read. -/
lemma Phase.exists_read (hC : CipherLaws L user.hexDecode) (hL : user.Lawful L)
    {packet : OpenSimp.Packet} {toClient : List OpenSimp.Packet} {iv seed data : Bytes}
    (h : Phase L user stage s.client.status (packet :: toClient) toServer)
    (hdata : packet.wire L iv = some data) (hne : data ≠ [])
    (hrunning : ∀ key, s.client.status ≠ .running key) (hquit : s.client.status ≠ .quit) :
    ∃ result, read L user seed data s.client = some result := by
  generalize hstatus : s.client.status = status at h
  cases h with
  | login h hlogin =>
    subst hstatus
    cases h with
    | greeted =>
      have hlogin : s.client.status = .login := hlogin
      obtain ⟨n, ciphertext, hn, hct, -⟩ := hL.exists_makeRsaPubkey
      cases hdata
      have hvalid : Utf8.Valid (L.publicKey ++ [0]) := hL.valid.append rfl
      have hutf8 : fromUtf8 (L.publicKey ++ [0]) = some (L.publicKey ++ [0]) := if_pos hvalid
      rw [read, if_neg hne, hlogin]
      simp only [hutf8, Option.bind_eq_bind, Option.bind_some, hn]
      rw [credits] at hct
      rw [hct]
      exact ⟨_, rfl⟩
    | asked =>
      have hlogin : s.client.status = .spb := hlogin
      rw [read, if_neg hne, hlogin]
      exact ⟨_, rfl⟩
    | keyed hct hsealed =>
      have hlogin : s.client.status = .aes := hlogin
      cases hdata
      obtain ⟨key, -, -, hkey⟩ := exists_key hC
      rw [read, if_neg hne, hlogin]
      simp only [hL.decrypts _ hct, Option.bind_eq_bind, Option.bind_some, dehex]
      rw [hkey]
      exact ⟨_, rfl⟩
  | running => exact absurd hstatus (hrunning _)
  | left => exact absurd hstatus hquit

end Phases

end OpenSimp.Rust
