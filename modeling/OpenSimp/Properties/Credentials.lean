import OpenSimp.Properties.Logins
import OpenSimp.Clients.Cpp

/-!
# Credentials

Both clients join a username and a password with a separator, and neither looks for separators in
them. The server's scanner returns the two exactly if there are none.
-/

namespace OpenSimp

open Bytes FaultState ServerNetwork

variable {u p u' p' : Bytes}

/-- The plaintext of the credentials: the bytes that the C++ client writes to `credits`, and the
slices that the Rust client concatenates. -/
def credits (u p : Bytes) : Bytes := u ++ [separator] ++ p

/-- The C++ client answers the first message with the encryption of its credentials. -/
lemma Cpp.handshake_credits {L : Library} {user : Cpp.User} {seed data : Bytes}
    {client client' : Cpp.ClientNetwork} {sent : List Bytes} (hstatus : client.status = .hasntBegun)
    (h : Cpp.handshake L user seed data client = .ok (client', sent)) :
    client'.status = .sentCredientials ∧
      ∃ a, Cpp.rsaEncrypt L seed client'.keys 0 (credits user.uname user.passwd) = .ok a ∧
        sent = Cpp.sendRaw a := by
  simp only [Cpp.handshake, hstatus] at h
  obtain ⟨serverPubkey, -, h⟩ := bind_eq_ok h
  obtain ⟨keys, -, h⟩ := bind_eq_ok h
  obtain ⟨a, ha, h⟩ := bind_eq_ok h
  cases h
  exact ⟨rfl, a, ha, rfl⟩

/-- What the server reads credentials as. -/
def parsed (u p : Bytes) : Bytes × Bytes :=
  ((credentials (credits u p)).uname, (credentials (credits u p)).passwd)

lemma parsed_eq (u p : Bytes) : parsed u p = (username (credits u p), password (credits u p)) := by
  rw [parsed, uname_credentials, passwd_credentials]

/-- The credentials of two users are read back, and are told apart if they differ. -/
structure RoundTrips (u p u' p' : Bytes) : Prop where
  first : parsed u p = (u, p)
  second : parsed u' p' = (u', p')
  distinct : (u, p) ≠ (u', p') → parsed u p ≠ parsed u' p'

lemma separator_not_mem_username (d : Bytes) : separator ∉ username d := by
  intro h
  have := List.mem_takeWhile_imp h
  simp at this

lemma separator_not_mem_password (d : Bytes) : separator ∉ password d :=
  separator_not_mem_username _

lemma parsed_eq_self_iff : parsed u p = (u, p) ↔ separator ∉ u ∧ separator ∉ p := by
  rw [parsed_eq, credits, List.append_assoc]
  constructor
  · intro h
    obtain ⟨hu, hp⟩ := Prod.mk.inj h
    have husername := separator_not_mem_username (u ++ ([separator] ++ p))
    have hpassword := separator_not_mem_password (u ++ ([separator] ++ p))
    rw [hu] at husername
    rw [hp] at hpassword
    exact ⟨husername, hpassword⟩
  · rintro ⟨hu, hp⟩
    rw [username_append hu, password_append hu hp]

/-- Two credentials round-trip, and are told apart, exactly if no separator is in them. -/
theorem credentials_roundtrip_iff (u p u' p' : Bytes) :
    RoundTrips u p u' p' ↔
      separator ∉ u ∧ separator ∉ p ∧ separator ∉ u' ∧ separator ∉ p' := by
  constructor
  · intro h
    obtain ⟨hu, hp⟩ := parsed_eq_self_iff.mp h.first
    obtain ⟨hu', hp'⟩ := parsed_eq_self_iff.mp h.second
    exact ⟨hu, hp, hu', hp'⟩
  · rintro ⟨hu, hp, hu', hp'⟩
    have hfirst := parsed_eq_self_iff.mpr ⟨hu, hp⟩
    have hsecond := parsed_eq_self_iff.mpr ⟨hu', hp'⟩
    exact ⟨hfirst, hsecond, fun hne => by rwa [hfirst, hsecond]⟩

/-- A separator in the username: the rest of it is read as the password. -/
theorem not_credentials_roundtrip :
    ¬ (∀ u p : Bytes, u ≠ [] → p ≠ [] → parsed u p = (u, p)) ∧
    ¬ (∀ u p u' p' : Bytes, u ≠ [] → p ≠ [] → u' ≠ [] → p' ≠ [] → (u, p) ≠ (u', p') →
      parsed u p ≠ parsed u' p') := by
  refine ⟨fun h => ?_, fun h => ?_⟩
  · have := h (ascii "al" ++ separator :: ascii "ice") (ascii "secret") (by decide) (by decide)
    exact absurd this (by decide)
  · exact h (ascii "al" ++ separator :: ascii "ice") (ascii "secret") (ascii "al") (ascii "ice")
      (by decide) (by decide) (by decide) (by decide) (by decide) (by decide)

end OpenSimp
