import OpenSimp.Server.Library

/-!
# Sending, broadcasting, accepting and disconnecting
-/

namespace OpenSimp

open Bytes FaultState

/-- The byte `\x01` that separates the fields of a packet. -/
def separator : Byte := 1

def space : Byte := 32

namespace ServerNetwork

variable (L : Library) (w : World)

/-- `ServerNetwork::send`: encrypts the C string `data` and sends it. -/
def send (data : Bytes) (dest : Sock) : M Bool := do
  let s ← socketSend w dest (.sealed (cstr data))
  if s ≠ .done then
    deref dest
    pure false
  else
    pure true

/-- `ServerNetwork::send_unencrypted`, which sends `data` as it is. -/
def sendUnencrypted (data : Bytes) (dest : Sock) : M Bool := do
  let s ← socketSend w dest (.clear data)
  if s ≠ .done then
    deref dest
    pure false
  else
    pure true

/-- `ServerNetwork::sendString` to a socket. -/
def sendString (str : Bytes) (client : Sock) : M Unit := do
  let _ ← send w (ascii "6" ++ [separator] ++ str) client
  pure ()

/-- `ServerNetwork::sendString` to the client at a position. -/
def sendStringAt (str : Bytes) (iterator : ℕ) : M Unit := do
  let client ← clientArray.index iterator
  let _ ← send w (ascii "6" ++ [separator] ++ str) client
  pure ()

/-- The body of `broadcast`'s loop. The `else` belongs to the inner `if`, so a client that is not
`Done` leaves `succeed` as it is. -/
def broadcastTo (data : Bytes) (exclude : Endpoint) (succeed : Bool) (iterator : ℕ) : M Bool := do
  let client ← clientArray.index iterator
  let peer ← remote w client
  if peer.address ≠ exclude.address ∨ peer.port ≠ exclude.port then
    let status ← clientAuthenticatedArray.index iterator
    if status = .done then
      send w data client
    else
      pure succeed
  else
    pure succeed

/-- `ServerNetwork::broadcast`: sends `data` to every `Done` client but the excluded one. -/
def broadcast (data : Bytes) (exclude : Endpoint) : M Bool := do
  act (.broadcast (cstr data))
  let size ← clientArray.size
  (List.range size).foldlM (broadcastTo w data exclude) false

/-- `ServerNetwork::broadcastString`. -/
def broadcastString (str : Bytes) (exclude : Endpoint) : M Unit := do
  let _ ← broadcast w (ascii "6" ++ [separator] ++ str) exclude
  pure ()

/-- The separators and aliases that a join or leave packet lists after the announced alias. -/
def rosterText (clientids : List Bytes) : Bytes :=
  (clientids.filter (· ≠ sentinel)).flatMap fun x => separator :: x

/-- `Cryptography::removeClientKey`. -/
def removeClientKey (sock : Sock) : M Unit := fun m =>
  .ok ((), { m with server :=
    { m.server with keys := fun q => if q = sock then none else m.server.keys q } })

/-- `Cryptography::pushNewClientKey`: `unordered_map::insert` keeps an entry that is already
there, and the constructor of the key may throw before it. -/
def pushNewClientKey (sock : Sock) (n : ℤ) : M Unit := fun m =>
  if L.rsaPublicKey n then
    .ok ((), { m with server :=
      { m.server with keys := fun q =>
          if q = sock then (m.server.keys q).or (some n) else m.server.keys q } })
  else .error (.exception, m)

/-- `Cryptography::RSA_encrypt`: `keys.at` throws when the socket has no key. -/
def rsaEncrypt (sock : Sock) (plaintext : Bytes) : M (Option Bytes) := fun m =>
  .ok (((m.server.keys sock).bind fun n => L.rsaEncrypt n plaintext).map (· w.seed), m)

/-- Who the log line of `disconnectClient` is about: the alias, or the address of a client that has
none. -/
def logLeave (socketPointer : Sock) (position : ℕ) : M Unit := do
  let clientid ← clientidArray.index position
  if clientid ≠ sentinel then
    let _ ← clientidArray.index position
    pure ()
  else
    deref socketPointer

/-- The warning that some reasons add to the log. -/
def logReason (socketPointer : Sock) (reason : DisconnectReason) : M Unit :=
  match reason with
  | .disconnectUnnamed | .disconnectSpam => deref socketPointer
  | .disconnectLeave | .disconnectKick => pure ()

/-- The leave packet of `disconnectClient`. The alias is erased before the others are listed. -/
def announceLeave (socketPointer : Sock) (position : ℕ) : M Unit := do
  let clientid ← clientidArray.index position
  clientidArray.erase position
  let clientids ← clientidArray.elements
  let exclude ← remote w socketPointer
  let _ ← broadcast w (ascii "2" ++ [separator] ++ clientid ++ rosterText clientids) exclude
  pure ()

/-- Only a `Done` client's key is removed. -/
def dropKey (socketPointer : Sock) (position : ℕ) : M Unit := do
  let status ← clientAuthenticatedArray.index position
  if status = .done then
    removeClientKey socketPointer
  else
    pure ()

/-- The socket and the row's entries in the other four vectors go. -/
def releaseRow (socketPointer : Sock) (position : ℕ) : M Unit := do
  deref socketPointer
  delete socketPointer
  clientArray.erase position
  clientOpArray.erase position
  clientAuthenticatedArray.erase position
  clientMessageInterval.erase position

/-- `ServerNetwork::disconnectClient`. -/
def disconnectClient (socketPointer : Sock) (position : ℕ) (reason : DisconnectReason) :
    M Unit := do
  logLeave socketPointer position
  logReason socketPointer reason
  announceLeave w socketPointer position
  dropKey socketPointer position
  releaseRow socketPointer position
  act (.disconnected position reason)
  markGone position

/-- A new client's entries in the five vectors. -/
def pushRow (newClient : Sock) (now : ℕ) : M Unit := do
  clientArray.pushBack newClient
  clientidArray.pushBack sentinel
  clientOpArray.pushBack false
  clientAuthenticatedArray.pushBack .undone
  clientMessageInterval.pushBack now

/-- One iteration of `ServerNetwork::connectClients`, which allocates the socket `newClient`. -/
def connectClients (newClient : Sock) : M Unit := do
  allocate newClient
  if w.status = .done then
    deref newClient
    pushRow newClient w.now
    deref newClient
    let _ ← sendUnencrypted w (L.publicKey ++ [0]) newClient
    countAccepted
  else
    delete newClient

end ServerNetwork

end OpenSimp
