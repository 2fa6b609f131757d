import Mathlib.Algebra.Order.Ring.Int
import OpenSimp.Lib.CString
import OpenSimp.Lib.FaultState

/-!
# The server's state

`ServerNetwork` keeps one entry per connected client in each of five parallel vectors, and
`Cryptography` a map from socket pointers to the clients' public keys. A `Machine` adds what the
C++ run time keeps about them: which sockets are allocated, and the effects of the event being
handled. Two flags work as an address sanitizer does: they record a dereference of a deleted
socket, and a use of the event's index after its row was erased. The serial numbers in `owners` say
which connection pushed each entry of each vector, since socket pointers are reused.
-/

namespace OpenSimp

open Bytes FaultState

/-- A `sf::TcpSocket*`. -/
abbrev Sock := ℕ

/-- An address and port, as `getRemoteAddress` and `getRemotePort` report them. -/
structure Endpoint where
  address : ℕ
  port : ℕ
  deriving DecidableEq

/-- `sf::Socket::Status`. -/
inductive SocketStatus where
  | done
  | notReady
  | partialSend
  | disconnected
  | error
  deriving DecidableEq

inductive AuthStatus where
  | keyReceived
  | done
  | failed
  | undone
  deriving DecidableEq

inductive DisconnectReason where
  | disconnectLeave
  | disconnectKick
  | disconnectUnnamed
  | disconnectSpam
  deriving DecidableEq

/-- What the server passes to `TcpSocket::send`: bytes as they are, or the AES-GCM encryption of a
plaintext under the server key. -/
inductive Packet where
  | clear (bytes : Bytes)
  | sealed (plaintext : Bytes)
  deriving DecidableEq

/-- The effects of an event that the outside sees, in the order they happen. -/
inductive Act where
  | broadcast (data : Bytes)
  | sent (sock : Sock) (packet : Packet)
  | registered (username password : Bytes)
  | disconnected (position : ℕ) (reason : DisconnectReason)
  deriving DecidableEq

/-- The ways a C++ call fails to return: an exception, an access outside an object's bounds, a C
string that does not end within its buffer, and a failed `assert`. Only the first can be caught. -/
inductive Fault where
  | exception
  | outOfBounds
  | overrun
  | assertion
  deriving DecidableEq

structure Server where
  clientArray : List Sock
  clientidArray : List Bytes
  clientOpArray : List Bool
  clientAuthenticatedArray : List AuthStatus
  /-- When each `sf::Clock` was last restarted, in milliseconds. -/
  clientMessageInterval : List ℕ
  /-- `Cryptography::keys`: the modulus stored for each socket pointer. -/
  keys : Sock → Option ℤ
  /-- The text of `userdata.yml`. -/
  userdata : Bytes

/-- The alias of a client that has not logged in. -/
def sentinel : Bytes := [0x96]

def maxRawData : ℕ := 4096

def serverKey : Bytes := ascii "2B7E151628AED2A6ABF7158809CF4F3C2B7E151628AED2A6ABF7158809CF4F3C"

/-- The names of the five vectors. -/
inductive VectorName where
  | clientArray
  | clientidArray
  | clientOpArray
  | clientAuthenticatedArray
  | clientMessageInterval
  deriving DecidableEq

/-- The run-time state while an event is handled. -/
@[ext]
structure Machine where
  server : Server
  /-- Which sockets are allocated. -/
  live : Sock → Bool
  /-- The connection that each entry of each vector belongs to. -/
  owners : VectorName → List ℕ
  /-- How many connections have been accepted. -/
  accepted : ℕ
  /-- The position erased so far in this event. -/
  gone : Option ℕ
  /-- A deleted socket was dereferenced. -/
  useAfterFree : Bool
  /-- A vector was accessed at the position erased earlier in the event. -/
  staleIndex : Bool
  acts : List Act

/-- Code of the server. -/
abbrev M := Prog Machine Fault

/-- What the operating system and the run time answer during one event. -/
structure World where
  /-- The status of the event's `receive` or `accept`. -/
  status : SocketStatus
  data : Bytes
  data_length_le : data.length ≤ maxRawData
  /-- The time when the event starts, in milliseconds. -/
  now : ℕ
  /-- The time when its handling ends. -/
  later : ℕ
  peer : Sock → Endpoint
  sendStatus : Sock → Packet → SocketStatus
  /-- The randomness of the RSA padding. -/
  seed : Bytes

/-! ### Vectors -/

/-- One of the five vectors. -/
structure Column (α : Type) where
  name : VectorName
  get : Server → List α
  put : List α → Server → Server

namespace Column

variable {α : Type} (c : Column α)

/-- `v[i]`. -/
def index (i : ℕ) : M α := fun m =>
  match (c.get m.server)[i]? with
  | some a => .ok (a, { m with staleIndex := m.staleIndex || m.gone == some i })
  | none => .error (.outOfBounds, m)

/-- `v[i] = a`. -/
def assign (i : ℕ) (a : α) : M Unit := fun m =>
  if i < (c.get m.server).length then
    .ok ((), { m with
      server := c.put ((c.get m.server).set i a) m.server
      staleIndex := m.staleIndex || m.gone == some i })
  else .error (.outOfBounds, m)

/-- `v.erase(v.begin() + i)`. -/
def erase (i : ℕ) : M Unit := fun m =>
  if i < (c.get m.server).length then
    .ok ((), { m with
      server := c.put ((c.get m.server).eraseIdx i) m.server
      owners := fun v => if v = c.name then (m.owners v).eraseIdx i else m.owners v
      staleIndex := m.staleIndex || m.gone == some i })
  else .error (.outOfBounds, m)

/-- `v.push_back(a)`, for the connection being accepted. -/
def pushBack (a : α) : M Unit := fun m =>
  .ok ((), { m with
    server := c.put (c.get m.server ++ [a]) m.server
    owners := fun v => if v = c.name then m.owners v ++ [m.accepted] else m.owners v })

/-- The elements a range-based `for` or `std::find` over `v` goes through. -/
def elements : M (List α) := fun m =>
  .ok (c.get m.server, { m with
    staleIndex := m.staleIndex || m.gone.any (· < (c.get m.server).length) })

/-- `v.size()`. -/
def size : M ℕ := fun m => .ok ((c.get m.server).length, m)

end Column

namespace ServerNetwork

def clientArray : Column Sock :=
  ⟨.clientArray, Server.clientArray, fun v s => { s with clientArray := v }⟩

def clientidArray : Column Bytes :=
  ⟨.clientidArray, Server.clientidArray, fun v s => { s with clientidArray := v }⟩

def clientOpArray : Column Bool :=
  ⟨.clientOpArray, Server.clientOpArray, fun v s => { s with clientOpArray := v }⟩

def clientAuthenticatedArray : Column AuthStatus :=
  ⟨.clientAuthenticatedArray, Server.clientAuthenticatedArray,
    fun v s => { s with clientAuthenticatedArray := v }⟩

def clientMessageInterval : Column ℕ :=
  ⟨.clientMessageInterval, Server.clientMessageInterval,
    fun v s => { s with clientMessageInterval := v }⟩

/-! ### Sockets -/

/-- A member call on `p`. -/
def deref (p : Sock) : M Unit := fun m =>
  .ok ((), { m with useAfterFree := m.useAfterFree || !m.live p })

/-- `new sf::TcpSocket()`. -/
def allocate (p : Sock) : M Unit := fun m =>
  .ok ((), { m with live := fun q => if q = p then true else m.live q })

/-- `delete p`. -/
def delete (p : Sock) : M Unit := fun m =>
  .ok ((), { m with live := fun q => if q = p then false else m.live q })

/-- An effect the outside sees. -/
def act (a : Act) : M Unit := fun m => .ok ((), { m with acts := m.acts ++ [a] })

/-- The entries pushed from here on belong to another connection. -/
def countAccepted : M Unit := fun m => .ok ((), { m with accepted := m.accepted + 1 })

/-- The row at `position` is erased from here to the end of the event. -/
def markGone (position : ℕ) : M Unit := fun m => .ok ((), { m with gone := some position })

/-- `p->getRemoteAddress()` and `p->getRemotePort()`. -/
def remote (w : World) (p : Sock) : M Endpoint := do
  deref p
  pure (w.peer p)

/-- `p->send(...)`. -/
def socketSend (w : World) (p : Sock) (packet : Packet) : M SocketStatus := do
  deref p
  act (.sent p packet)
  pure (w.sendStatus p packet)

/-- `sf::Time::asMilliseconds`, which returns an `Int32`. -/
def asMilliseconds (elapsed : ℕ) : ℤ := (elapsed : ℤ).bmod (2 ^ 32)

/-- `client_message_interval[iterator]->restart().asMilliseconds()`. -/
def restart (iterator now : ℕ) : M ℤ := do
  let started ← clientMessageInterval.index iterator
  clientMessageInterval.assign iterator now
  pure (asMilliseconds (now - started))

end ServerNetwork

end OpenSimp
