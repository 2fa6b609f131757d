import OpenSimp.Lib.Lines
import OpenSimp.Server.Commands

/-!
# The C++ client

`ClientNetwork::handshake` answers one message of the server and tells the messages apart by
counting them. `ClientNetwork::receive` takes the bytes of every read for one encrypted packet and
cuts the plaintext into an array of a hundred words.
-/

namespace OpenSimp

open Bytes FaultState

namespace Cpp

/-! ### The handshake -/

/-- `ClientNetwork::HandshakeStatus`. -/
inductive HandshakeStatus where
  | hasntBegun
  | receivedPubKey
  | sentCredientials
  | sentPubKey
  | receivedAESKey
  deriving DecidableEq

/-- The user of a client and the client's key pair. -/
structure User where
  uname : Bytes
  passwd : Bytes
  modulus : ℤ
  /-- The modulus in decimal, as `BigInt`s are printed. -/
  publicKey : Bytes
  /-- `PK_Decryptor_EME::decrypt` with the client's private key. -/
  rsaDecrypt : Bytes → Option Bytes

/-- The fields of `ClientNetwork` and its `Cryptography` that the handshake uses. -/
structure ClientNetwork where
  status : HandshakeStatus
  serverPubkey : ℤ
  /-- `Cryptography::keys`. -/
  keys : List ℤ
  aesKey : Bytes
  hasHandshook : Bool

/-- A client that is about to connect. -/
def ClientNetwork.init : ClientNetwork where
  status := .hasntBegun
  serverPubkey := 0
  keys := []
  aesKey := []
  hasHandshook := false

/-- `ClientNetwork::send_raw`: the messages that are sent. -/
def sendRaw (sent : Bytes) : List Bytes := if sent.length > 0 then [sent] else []

/-- `Cryptography::pushNewClientKey`. -/
def pushNewClientKey (L : Library) (keys : List ℤ) (n : ℤ) : Except Fault (List ℤ) :=
  if L.rsaPublicKey n then .ok (keys ++ [n]) else .error .exception

/-- `Cryptography::RSA_encrypt` with the padding drawn from `seed`. -/
def rsaEncrypt (L : Library) (seed : Bytes) (keys : List ℤ) (iterator : ℕ) (plaintext : Bytes) :
    Except Fault Bytes := do
  let n ← orThrow .outOfBounds keys[iterator]?
  let ciphertext ← orThrow .exception (L.rsaEncrypt n plaintext)
  pure (ciphertext seed)

/-- `BigInt(data)` of the message in the handshake's buffer, which is not initialised: only what
stands before a NUL in the message is known. -/
def bigIntOfBuffer (L : Library) (data : Bytes) : Except Fault ℤ :=
  if (0 : Byte) ∈ data then orThrow .exception (L.bigInt (cstr data)) else .error .outOfBounds

/-- `ClientNetwork::handshake` on a message `data`: the client after it, and what it has sent. -/
def handshake (L : Library) (user : User) (seed data : Bytes) (client : ClientNetwork) :
    Except Fault (ClientNetwork × List Bytes) :=
  match client.status with
  | .hasntBegun => do
    let serverPubkey ← bigIntOfBuffer L data
    let keys ← pushNewClientKey L client.keys serverPubkey
    let a ← rsaEncrypt L seed keys 0 (user.uname ++ [separator] ++ user.passwd)
    pure ({ client with serverPubkey, keys, status := .sentCredientials }, sendRaw a)
  | .sentCredientials =>
    .ok ({ client with status := .sentPubKey }, sendRaw user.publicKey)
  | .sentPubKey => do
    let v ← orThrow .exception (user.rsaDecrypt data)
    pure ({ client with status := .receivedAESKey, aesKey := v, hasHandshook := true }, [])
  | .receivedPubKey | .receivedAESKey => .ok (client, [])

/-! ### Lines -/

/-- What `ClientNetwork::run` sends for a line of the user. The slash of a command is moved out of
the buffer of the string, which keeps its length. -/
def userInput (line : Bytes) : Bytes :=
  let userInput := if line = [] then ascii "AA" else line
  if userInput.head? = some 47 then
    let tosend := userInput ++ [0]
    let moved := memmove tosend 0 1 ((cstr (tosend.drop 1)).length + 1)
    ascii "5" ++ moved.take userInput.length
  else
    ascii "0" ++ userInput

/-- The NUL of a command line is sent with it. -/
lemma userInput_slash {c : Bytes} (h0 : (0 : Byte) ∉ c) :
    userInput (47 :: c) = ascii "5" ++ (c ++ [0]) := by
  have hcstr : cstr (c ++ [0]) = c := by
    rw [cstr_append h0]
    simp [cstr]
  have hmoved : (memmove (47 :: (c ++ [0])) 0 1 (c.length + 1)).take (c.length + 1) = c ++ [0] := by
    have hlen : (c ++ [0]).length = c.length + 1 := by simp
    rw [memmove, List.take_zero, List.nil_append, List.drop_succ_cons, List.drop_zero, ← hlen,
      List.take_length, List.take_left]
  simp only [userInput, reduceCtorEq, if_false, List.head?_cons, if_true, List.cons_append,
    List.drop_succ_cons, List.drop_zero, hcstr, List.length_cons, hmoved]

/-! ### Packets -/

/-- `Utils::lexer`, whose loop is the one of `Lexer::lex`. -/
def lexer (str : Bytes) (arg : List Bytes) (divider : Byte) : Except Fault (List Bytes) :=
  Lexer.lex str arg divider

/-- The plaintext that `ClientNetwork::receive` gets from the bytes of a read. -/
def plaintext (L : Library) (aesKey data : Bytes) : Except Fault Bytes := do
  let (_, msg) ← Cryptography.decrypt L data aesKey
  pure msg

/-- The loop of `ClientNetwork::receive`: the plaintexts of the reads. -/
def receiveLoop (L : Library) (aesKey : Bytes) (reads : List Bytes) : Except Fault (List Bytes) :=
  reads.mapM (plaintext L aesKey)

/-- The number of words of `ClientNetwork::receive`. -/
def words : ℕ := 100

/-- What `ClientNetwork::receive` shows of a chat packet: the sender and the text. -/
def message (pt : Bytes) : Except Fault (Option (Bytes × Bytes)) := do
  let args ← lexer pt (List.replicate words []) separator
  if args.getD 0 [] = ascii "0" then
    pure (some (args.getD 2 [], args.getD 1 []))
  else
    pure none

/-- What `ClientNetwork::receive` shows of a packet. -/
inductive Shown where
  | message (sender text : Bytes)
  | joined (who : Bytes) (list : List Bytes)
  | left (who : Bytes) (list : List Bytes)
  | command (text : Bytes)
  | direct (text : Bytes)
  deriving DecidableEq

/-- The dispatch of `ClientNetwork::receive` on the first word. -/
def dispatch (args : List Bytes) : Option Shown :=
  if args.getD 0 [] = ascii "0" then some (.message (args.getD 2 []) (args.getD 1 []))
  else if args.getD 0 [] = ascii "1" then some (.joined (args.getD 1 []) (args.drop 2))
  else if args.getD 0 [] = ascii "2" then some (.left (args.getD 1 []) (args.drop 2))
  else if args.getD 0 [] = ascii "5" then some (.command (args.getD 1 []))
  else if args.getD 0 [] = ascii "6" then some (.direct (args.getD 1 []))
  else none

/-- What is shown of a plaintext. -/
def shown (pt : Bytes) : Except Fault (Option Shown) := do
  let args ← lexer pt (List.replicate words []) separator
  pure (dispatch args)

/-- The words of a packet are its fields, with empty ones after them, if there is room for all. -/
lemma lexer_eq (pt : Bytes) :
    lexer pt (List.replicate words []) separator =
      if (pt.splitOn separator).length ≤ words then
        .ok (pt.splitOn separator ++
          List.replicate (words - (pt.splitOn separator).length) [])
      else .error .outOfBounds := by
  have hwords : List.replicate words ([] : Bytes) = List.replicate (99 + 1) [] := rfl
  have hlength := length_splitOn pt separator
  rw [lexer, hwords, Lexer.lex_eq, hlength, words]
  by_cases h : pt.count separator ≤ 99
  · rw [if_pos h, if_pos (by omega)]
    have hfree : 99 - pt.count separator = 100 - (pt.count separator + 1) := by omega
    rw [hfree]
  · rw [if_neg h, if_neg (by omega)]

/-- Empty words after the fields change none of them. -/
lemma getD_append_replicate_nil (fields : List Bytes) (n k : ℕ) :
    (fields ++ List.replicate n []).getD k [] = fields.getD k [] := by
  simp only [List.getD_eq_getElem?_getD]
  rcases Nat.lt_or_ge k fields.length with hk | hk
  · rw [List.getElem?_append_left hk]
  · rw [List.getElem?_append_right hk, List.getElem?_eq_none hk, List.getElem?_replicate]
    split_ifs <;> rfl

/-- What is shown depends on the fields only. -/
lemma message_of_fields (pt : Bytes) :
    message pt = if (pt.splitOn separator).length ≤ words then
      .ok (if (pt.splitOn separator).getD 0 [] = ascii "0" then
        some ((pt.splitOn separator).getD 2 [], (pt.splitOn separator).getD 1 []) else none)
      else .error .outOfBounds := by
  rw [message, lexer_eq]
  split_ifs with hroom htag
  · rw [ok_bind, getD_append_replicate_nil, if_pos htag, getD_append_replicate_nil,
      getD_append_replicate_nil]
    rfl
  · rw [ok_bind, getD_append_replicate_nil, if_neg htag]
    rfl
  · rfl

/-- A chat packet is shown with its sender and its text. -/
lemma message_eq {text sender : Bytes} (htext : separator ∉ text) (hsender : separator ∉ sender) :
    message (ascii "0" ++ separator :: (text ++ separator :: sender)) =
      .ok (some (sender, text)) := by
  have hstarter : separator ∉ ascii "0" := by decide
  have hsplit : (ascii "0" ++ separator :: (text ++ separator :: sender)).splitOn separator =
      [ascii "0", text, sender] := by
    rw [List.splitOn_append_cons_self_of_not_mem hstarter,
      List.splitOn_append_cons_self_of_not_mem htext, List.splitOn_eq_singleton hsender]
  have hroom : [ascii "0", text, sender].length ≤ words := show 3 ≤ 100 by omega
  rw [message_of_fields, hsplit, if_pos hroom]
  rfl

/-- A chat packet that lost its sender is shown with an empty one. -/
lemma message_cut {text : Bytes} (htext : separator ∉ text) :
    message (ascii "0" ++ separator :: text) = .ok (some ([], text)) := by
  have hstarter : separator ∉ ascii "0" := by decide
  have hroom : [ascii "0", text].length ≤ words := show 2 ≤ 100 by omega
  rw [message_of_fields, List.splitOn_append_cons_self_of_not_mem hstarter,
    List.splitOn_eq_singleton htext, if_pos hroom]
  rfl

end Cpp

end OpenSimp
