import OpenSimp.Lib.Transition
import OpenSimp.Server.Library

/-!
# One connection of the server

What the server is for a single connection: a party that sends its public key, asks for the
client's, answers it with the server key, and from then on sends sealed packets only. `Progress`
describes all that the party has sent when it is at a given stage.
-/

namespace OpenSimp

open Bytes System

/-- How far the server is with a connection. -/
inductive Stage where
  | unaccepted
  | present (status : AuthStatus)
  | gone
  deriving DecidableEq

/-- What an event reads from a connection. -/
inductive Poll where
  | nothing
  | closed
  | read (data : Bytes)

/-- The bytes that a poll reads. -/
def Poll.data : Poll → List Bytes
  | .read data => [data]
  | _ => []

/-- The server's public key, as `connectClients` sends it. -/
def greeting (L : Library) : Packet := .clear (L.publicKey ++ [0])

/-- The request for the client's public key. -/
def keyRequest : Packet := .clear (ascii "spb")

def Packet.Sealed : Packet → Prop
  | .clear _ => False
  | .sealed _ => True

/-- The bytes `data` are read as the public key `n`. -/
def KeyText (L : Library) (data : Bytes) (n : ℤ) : Prop :=
  ∃ text, ofBuffer maxRawData data = some text ∧ L.bigInt text = some n

/-- The bytes before the first NUL are read as the key. -/
lemma KeyText.eq_of_bigInt {L : Library} {data text : Bytes} {m n : ℤ} (h : KeyText L data m)
    (hcstr : cstr data = text) (hbigInt : L.bigInt text = some n) : m = n := by
  obtain ⟨text', htext, hm⟩ := h
  rw [ofBuffer] at htext
  split_ifs at htext
  rw [← Option.some.inj htext, hcstr, hbigInt] at hm
  exact (Option.some.inj hm).symm

/-- How the party answers a poll: the packets it sends, and the stage it goes to. -/
inductive Stage.Moves (L : Library) : Stage → Poll → List Packet → Stage → Prop where
  | stays (stage : Stage) (poll : Poll) : Moves L stage poll [] stage
  | accepts : Moves L .unaccepted .nothing [greeting L] (.present .undone)
  | asks {data : Bytes} :
      Moves L (.present .undone) (.read data) [keyRequest] (.present .keyReceived)
  | answers {data seed : Bytes} {n : ℤ} {ciphertext : Bytes → Bytes} (hkey : KeyText L data n)
      (hct : L.rsaEncrypt n serverKey = some ciphertext) :
      Moves L (.present .keyReceived) (.read data) [.clear (ciphertext seed)] (.present .done)
  | relays {poll : Poll} {packets : List Packet} (hsealed : ∀ packet ∈ packets, packet.Sealed) :
      Moves L (.present .done) poll packets (.present .done)
  | drops {status : AuthStatus} {poll : Poll} {packets : List Packet} (hpoll : poll ≠ .nothing)
      (hsealed : ∀ packet ∈ packets, packet.Sealed) (hdone : status = .done ∨ packets = []) :
      Moves L (.present status) poll packets .gone

/-- The server, for one connection. -/
def party (L : Library) : System Stage Poll (List Packet) := ⟨Stage.Moves L⟩

/-- What the party has sent in some steps after which it is at a stage. The answer to the client's
key is the server key, encrypted under the key read in one of the steps. -/
inductive Progress (L : Library) (steps : List (Step Stage Poll (List Packet))) :
    Stage → List Packet → Prop where
  | unaccepted : Progress L steps .unaccepted []
  | undone : Progress L steps (.present .undone) [greeting L]
  | keyReceived : Progress L steps (.present .keyReceived) [greeting L, keyRequest]
  | done {st : Step Stage Poll (List Packet)} {data seed : Bytes} {n : ℤ}
      {ciphertext : Bytes → Bytes} {packets : List Packet} (hst : st ∈ steps)
      (hpre : st.pre = .present .keyReceived) (hread : st.event = .read data)
      (hkey : KeyText L data n) (hct : L.rsaEncrypt n serverKey = some ciphertext)
      (hsealed : ∀ packet ∈ packets, packet.Sealed) :
      Progress L steps (.present .done)
        ([greeting L, keyRequest, .clear (ciphertext seed)] ++ packets)
  | gone {status : AuthStatus} {messages : List Packet}
      (h : Progress L steps (.present status) messages) : Progress L steps .gone messages

variable {L : Library} {steps : List (Step Stage Poll (List Packet))} {stage stage' : Stage}
  {poll : Poll} {messages packets : List Packet}

lemma Progress.mono {steps' : List (Step Stage Poll (List Packet))} (hsteps : steps ⊆ steps')
    (h : Progress L steps stage messages) : Progress L steps' stage messages := by
  induction h with
  | unaccepted => exact .unaccepted
  | undone => exact .undone
  | keyReceived => exact .keyReceived
  | done hst hpre hread hkey hct hsealed => exact .done (hsteps hst) hpre hread hkey hct hsealed
  | gone _ ih => exact .gone ih

/-- Once it has answered, the party may send any sealed packets. -/
lemma Progress.append_sealed (h : Progress L steps (.present .done) messages)
    (hpackets : ∀ packet ∈ packets, packet.Sealed) :
    Progress L steps (.present .done) (messages ++ packets) := by
  cases h with
  | done hst hpre hread hkey hct hsealed =>
    rw [List.append_assoc]
    apply Progress.done hst hpre hread hkey hct
    intro packet hpacket
    rcases List.mem_append.mp hpacket with hpacket | hpacket
    · exact hsealed packet hpacket
    · exact hpackets packet hpacket

lemma Progress.moves (h : Progress L steps stage messages)
    (hmoves : stage.Moves L poll packets stage') :
    Progress L (steps ++ [⟨stage, poll, packets, stage'⟩]) stage' (messages ++ packets) := by
  have hmono := h.mono (List.subset_append_left steps [⟨stage, poll, packets, stage'⟩])
  cases hmoves with
  | stays =>
    rw [List.append_nil]
    exact hmono
  | accepts =>
    cases h
    exact .undone
  | asks =>
    cases h
    exact .keyReceived
  | answers hkey hct =>
    cases h
    have hnone : ∀ packet ∈ ([] : List Packet), packet.Sealed := by simp
    exact .done (List.mem_append_right _ (List.mem_singleton_self _)) rfl rfl hkey hct hnone
  | relays hsealed => exact hmono.append_sealed hsealed
  | drops _ hsealed hdone =>
    rcases hdone with rfl | rfl
    · exact .gone (hmono.append_sealed hsealed)
    · rw [List.append_nil]
      exact .gone hmono

/-- In every run of the party what it has sent fits its stage. -/
theorem progress_of_run (h : (party L).Run .unaccepted steps stage) :
    Progress L steps stage (steps.flatMap (·.obs)) := by
  induction h with
  | nil => exact .unaccepted
  | snoc hrun hmoves ih =>
    rw [List.flatMap_append, List.flatMap_singleton]
    exact ih.moves hmoves

/-- While the client has not sent its key, nothing is sealed. -/
lemma Progress.not_sealed {packet : Packet}
    (h : Progress L steps (.present .keyReceived) messages) (hpacket : packet ∈ messages) :
    ¬ packet.Sealed := by
  cases h
  simp only [List.mem_cons, List.not_mem_nil, or_false] at hpacket
  rcases hpacket with rfl | rfl
  · exact not_false
  · exact not_false

end OpenSimp
