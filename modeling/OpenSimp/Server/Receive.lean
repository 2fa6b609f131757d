import OpenSimp.Server.Commands
import OpenSimp.Lib.Lines

/-!
# Handling what a client sends

`receive` handles one poll of one client. Its four parts, told apart by the client's status, are
separate functions here: the credentials of an `Undone` client, the public key of a `KeyReceived`
one, and the encrypted packets of the others.
-/

namespace OpenSimp

open Bytes FaultState

namespace ServerNetwork

variable (L : Library) (w : World)

/-! ### Aliases and accounts -/

/-- The characters of `[a-zA-Z0-9_]`. -/
def isAliasChar (c : Byte) : Bool :=
  (97 ≤ c && c ≤ 122) || (65 ≤ c && c ≤ 90) || (48 ≤ c && c ≤ 57) || c == 95

/-- `s.find_first_not_of(" \t\n\v\f\r") == std::string::npos`. -/
def isBlank (s : Bytes) : Bool := s.all (· ∈ [32, 9, 10, 11, 12, 13])

def readUserdata : M Bytes := fun m => .ok (m.server.userdata, m)

def writeUserdata (text : Bytes) : M Unit := fun m =>
  .ok ((), { m with server := { m.server with userdata := text } })

/-- `ServerNetwork::registerUser`: reads the file line by line and writes it back with one more
user. -/
def registerUser (username password : Bytes) : M Unit := do
  let out := cstr (L.yamlEmit username password)
  let text ← readUserdata
  let prevFile := (getlines text).flatMap (· ++ [newline])
  writeUserdata (prevFile ++ out)
  act (.registered username password)

/-- The join packet of `received_data`, which `char_array` holds a copy of. -/
def joinMessage (charArray : Bytes) (clientids : List Bytes) : Bytes :=
  ascii "1" ++ [separator] ++ charArray ++ rosterText clientids

/-- `ServerNetwork::nick`. -/
def nick (receivedData : Bytes) (client : Sock) (iterator : ℕ) : M Bool := do
  let clientids ← clientidArray.elements
  if receivedData ∈ clientids then
    disconnectClient w client iterator .disconnectKick
    pure false
  else if receivedData.length < 3 then
    disconnectClient w client iterator .disconnectKick
    pure false
  else if receivedData.length > 16 then
    disconnectClient w client iterator .disconnectKick
    pure false
  else if ¬ receivedData.all isAliasChar then
    disconnectClient w client iterator .disconnectKick
    pure false
  else
    let charArray ← ofOption .overrun (strcpy 256 receivedData)
    if isBlank receivedData then
      let _ ← send w (ascii "6" ++ [separator] ++ ascii "Stop sending empty stuff.") client
      pure false
    else
      clientidArray.assign iterator receivedData
      let clientids ← clientidArray.elements
      let exclude ← remote w client
      let _ ← broadcast w (joinMessage charArray clientids) exclude
      deref client
      pure true

/-- `ServerNetwork::handleNick`. -/
def handleNick (receivedData : Bytes) (client : Sock) (iterator : ℕ) : M Bool :=
  nick w (receivedData.drop 2) client iterator

/-! ### The credentials of an `Undone` client -/

inductive UserStatus where
  | gotUsername
  | gotUsernameAndPassword
  | gotNeither
  deriving DecidableEq

structure Credentials where
  userStatus : UserStatus
  uname : Bytes
  passwd : Bytes

/-- The body of the loop that splits the decrypted credentials. -/
def credentialsStep (s : Credentials) (x : Byte) : Credentials :=
  if x = separator then
    match s.userStatus with
    | .gotUsername => { s with userStatus := .gotUsernameAndPassword }
    | .gotNeither => { s with userStatus := .gotUsername }
    | .gotUsernameAndPassword => s
  else
    match s.userStatus with
    | .gotUsername => { s with passwd := s.passwd ++ [x] }
    | .gotNeither => { s with uname := s.uname ++ [x] }
    | .gotUsernameAndPassword => s

def credentials (decstr : Bytes) : Credentials :=
  decstr.foldl credentialsStep ⟨.gotNeither, [], []⟩

/-- `YAML::LoadFile("userdata.yml")`. -/
def loadUserdata : M Node := do
  let text ← readUserdata
  ofOption .exception (L.yamlLoad text)

/-- `ServerNetwork::openUserdata` on the text of `userdata.yml`, or on no file: the text that the
server starts with. -/
def openUserdata : Option Bytes → Except Fault Bytes
  | some text => do
    let _ ← orThrow .exception (L.yamlLoad text)
    pure text
  | none => .ok []

/-- The answer to a wrong or missing password: the log line after `disconnectClient` asks the
deleted socket for its address. -/
def refusePassword (client : Sock) (iterator : ℕ) : M Bool := do
  disconnectClient w client iterator .disconnectKick
  deref client
  pure false

/-- The end of `receive`'s lookup for a user that is not in the file. -/
def welcomeUser (uname passwd : Bytes) (client : Sock) : M Bool := do
  registerUser L uname passwd
  let exclude ← remote w client
  broadcastString w (ascii "Everybody welcome the new user " ++ uname) exclude
  pure true

/-- The part of `receive` that looks the user up; `false` where it returns early. -/
def authenticate (uname passwd : Bytes) (client : Sock) (iterator : ℕ) : M Bool := do
  let config ← loadUserdata L
  let user ← ofExcept (config.subscript uname)
  if user.isDefined then
    let password ← ofExcept (user.subscript (ascii "password"))
    if password.isDefined then
      let password ← ofExcept password.asString
      if password = passwd then
        nick w uname client iterator
      else
        refusePassword w client iterator
    else
      refusePassword w client iterator
  else
    let named ← nick w uname client iterator
    if named then
      welcomeUser L w uname passwd client
    else
      pure false

/-- The end of `receive` for a client that has logged in: it asks for the client's public key. -/
def requestKey (client : Sock) (iterator : ℕ) : M Unit := do
  clientAuthenticatedArray.assign iterator .keyReceived
  let _ ← sendUnencrypted w (ascii "spb") client
  pure ()

/-- `receive` from an `Undone` client. -/
def receiveCredentials (client : Sock) (iterator : ℕ) : M Unit :=
  match L.rsaDecrypt w.data with
  | none => disconnectClient w client iterator .disconnectKick
  | some decstr =>
    let c := credentials decstr
    if c.uname = [] ∨ c.passwd = [] then
      disconnectClient w client iterator .disconnectKick
    else do
      let accepted ← authenticate L w c.uname c.passwd client iterator
      if accepted then
        requestKey w client iterator
      else
        pure ()

/-! ### The public key of a `KeyReceived` client -/

/-- `receive` from a `KeyReceived` client. Only the encryption is inside the `try` block. -/
def receiveKey (client : Sock) (iterator : ℕ) : M Unit := do
  let text ← ofOption .overrun (ofBuffer maxRawData w.data)
  let n ← ofOption .exception (L.bigInt text)
  pushNewClientKey L client n
  let a ← rsaEncrypt L w client serverKey
  match a with
  | none => disconnectClient w client iterator .disconnectKick
  | some serverKeyStr =>
    let _ ← sendUnencrypted w serverKeyStr client
    clientAuthenticatedArray.assign iterator .done

/-! ### The packets of the other clients -/

/-- `ServerNetwork::check`: whether the C string has no separator. -/
def check (data : Bytes) : Bool := separator ∉ cstr data

/-- The log lines before a client is kicked for what it sent. -/
def logInvalidSend (client : Sock) (iterator : ℕ) : M Unit := do
  let clientid ← clientidArray.index iterator
  if clientid ≠ sentinel then
    let _ ← clientidArray.index iterator
  else
    deref client
  deref client

/-- `ServerNetwork::handleCommand`. -/
def handleCommand (receivedData : Bytes) (client : Sock) (iterator : ℕ) : M Unit := do
  let _ ← clientidArray.index iterator
  Executor.iterate w (commands w) (receivedData.drop 1) client iterator

/-- `ServerNetwork::handleSend`: the chat packet, or `none` where it returns `false`. -/
def handleSend (receivedData : Bytes) (client : Sock) (iterator : ℕ) : M (Option Bytes) := do
  let receivedData := receivedData.drop 1
  if isBlank (cstr receivedData) then
    let _ ← send w (ascii "6" ++ [separator] ++ ascii "Stop sending empty shit.") client
    disconnectClient w client iterator .disconnectKick
    pure none
  else
    let clientid ← clientidArray.index iterator
    if clientid ≠ sentinel then
      let clientid ← clientidArray.index iterator
      pure (some (ascii "0" ++ [separator] ++ receivedData ++ [separator] ++ clientid))
    else
      disconnectClient w client iterator .disconnectUnnamed
      pure none

/-- The end of `receive`, which relays `sending_string` to the other clients. -/
def relay (convertedSS : Bytes) (client : Sock) (iterator : ℕ) : M Unit := do
  let charArray ← ofOption .overrun (strcpy 256 convertedSS)
  let exclude ← remote w client
  let _ ← broadcast w charArray exclude
  let clientid ← clientidArray.index iterator
  if clientid ≠ sentinel then
    let _ ← clientidArray.index iterator
  else
    deref client
  let _ ← restart iterator w.later
  pure ()

/-- The part of `receive` that dispatches on the type of a packet. -/
def dispatch (sentData : Bytes) (client : Sock) (iterator : ℕ) : M Unit := do
  if startsWith 48 sentData then
    let sendingString ← handleSend w sentData client iterator
    match sendingString with
    | some s => relay w s client iterator
    | none => pure ()
  else if startsWith 51 sentData then
    let _ ← handleNick w sentData client iterator
    pure ()
  else if startsWith 52 sentData then
    relay w [] client iterator
  else if startsWith 53 sentData then
    handleCommand w sentData client iterator
  else
    disconnectClient w client iterator .disconnectKick

/-- `receive` of an encrypted packet. -/
def receivePacket (client : Sock) (iterator : ℕ) : M Unit :=
  match Cryptography.decrypt L w.data serverKey with
  | .error .exception => sendString w (ascii "Your previous message was not sent") client
  | .error fault => throw fault
  | .ok (_, sentData) =>
    if ¬ check sentData then do
      logInvalidSend client iterator
      disconnectClient w client iterator .disconnectKick
    else if sentData.length ≥ 4096 then do
      logInvalidSend client iterator
      disconnectClient w client iterator .disconnectKick
    else
      dispatch w sentData client iterator

/-- What `receive` does with bytes that are not spam. -/
def receiveData (client : Sock) (iterator : ℕ) : M Unit := do
  let status ← clientAuthenticatedArray.index iterator
  if status = .undone then
    receiveCredentials L w client iterator
  else
    let status ← clientAuthenticatedArray.index iterator
    if status = .keyReceived then
      receiveKey L w client iterator
    else
      receivePacket L w client iterator

/-- `ServerNetwork::receive`. -/
def receive (client : Sock) (iterator : ℕ) : M Unit := do
  deref client
  if w.status = .disconnected then
    disconnectClient w client iterator .disconnectLeave
  else if w.data ≠ [] then
    let status ← clientAuthenticatedArray.index iterator
    if status = .done then
      let elapsed ← restart iterator w.now
      if elapsed ≤ 20 then
        disconnectClient w client iterator .disconnectSpam
      else
        receiveData L w client iterator
    else
      receiveData L w client iterator
  else
    pure ()

end ServerNetwork

end OpenSimp
