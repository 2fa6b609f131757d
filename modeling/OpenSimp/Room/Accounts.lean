import OpenSimp.Room.Outcome

/-!
# Accounts

`userdata.yml` as a list of accounts. `YamlLaws` is what the server relies on yaml-cpp for:
the blocks it emits, each on its own lines, load as the map of the accounts. Under these laws a
text that `registerUser` wrote decides every lookup, and registering a new user keeps it such a
text.
-/

namespace OpenSimp

open Bytes FaultState ServerNetwork

variable {L : Library} {text u p : Bytes} {accounts : List (Bytes × Bytes)}

/-- What `registerUser` writes for a user and its password. -/
def accountBlock (L : Library) (a : Bytes × Bytes) : Bytes := cstr (L.yamlEmit a.1 a.2)

/-- What a user's entry loads as. -/
def accountNode (password : Bytes) : Node := .map [(ascii "password", .scalar password)]

def accountsNode (accounts : List (Bytes × Bytes)) : Node :=
  .map (accounts.map fun a => (a.1, accountNode a.2))

/-- yaml-cpp loads the accounts it emitted. -/
structure YamlLaws (L : Library) : Prop where
  isBlock : ∀ u p, ValidAlias u → IsBlock (accountBlock L (u, p))
  load_nil : L.yamlLoad [] = some .null
  load_blocks : ∀ accounts : List (Bytes × Bytes), accounts ≠ [] →
    (accounts.map Prod.fst).Nodup → (∀ a ∈ accounts, ValidAlias a.1) →
    L.yamlLoad (blocks (accounts.map (accountBlock L))) = some (accountsNode accounts)

/-- The text is what registering these accounts one after the other leaves. -/
structure Written (L : Library) (text : Bytes) (accounts : List (Bytes × Bytes)) : Prop where
  text_eq : text = blocks (accounts.map (accountBlock L))
  nodup : (accounts.map Prod.fst).Nodup
  valid : ∀ a ∈ accounts, ValidAlias a.1

lemma Written.nil : Written L [] [] := ⟨rfl, by simp, by simp⟩

/-- Registering one more user writes the file of one more account. -/
lemma Written.append (hL : YamlLaws L) (h : Written L text accounts) (hu : ValidAlias u)
    (hnew : u ∉ accounts.map Prod.fst) (p : Bytes) :
    Written L (registeredText L text u p) (accounts ++ [(u, p)]) where
  text_eq := by
    have hblocks : ∀ b ∈ accounts.map (accountBlock L), IsBlock b := by
      intro b hb
      obtain ⟨a, ha, rfl⟩ := List.mem_map.mp hb
      exact hL.isBlock a.1 a.2 (h.valid a ha)
    rw [registeredText, h.text_eq, List.map_append]
    exact blocks_append hblocks _
  nodup := by
    rw [List.map_append, List.nodup_append]
    refine ⟨h.nodup, by simp, ?_⟩
    intro v hv v' hv'
    rw [List.map_singleton, List.mem_singleton] at hv'
    subst hv'
    rintro rfl
    exact hnew hv
  valid := by
    intro a ha
    rcases List.mem_append.mp ha with ha | ha
    · exact h.valid a ha
    · rwa [List.mem_singleton.mp ha]

/-! ### Lookups -/

lemma subscript_accountsNode (hnodup : (accounts.map Prod.fst).Nodup) :
    ((accountsNode accounts).subscript u = .ok .undefined ∧ u ∉ accounts.map Prod.fst) ∨
      ∃ p, (accountsNode accounts).subscript u = .ok (accountNode p) ∧ (u, p) ∈ accounts := by
  rw [accountsNode, Node.subscript]
  induction accounts with
  | nil => exact .inl ⟨rfl, by simp⟩
  | cons a accounts ih =>
    obtain ⟨hhead, htail⟩ := List.nodup_cons.mp hnodup
    by_cases ha : u = a.1
    · refine .inr ⟨a.2, ?_, ?_⟩
      · simp [ha]
      · simp [ha]
    · have hne : (u == a.1) = false := by simpa using ha
      simp only [List.map_cons, List.lookup_cons, hne, List.mem_cons, ha, false_or]
      rcases ih htail with ⟨h, hmem⟩ | ⟨p, h, hmem⟩
      · exact .inl ⟨h, hmem⟩
      · exact .inr ⟨p, h, .inr hmem⟩

/-- Loading a written file and looking a user up. -/
lemma Written.lookup (hL : YamlLaws L) (h : Written L text accounts) (u : Bytes) :
    ∃ config, L.yamlLoad text = some config ∧
      ((config.subscript u = .ok .undefined ∧ u ∉ accounts.map Prod.fst) ∨
        ∃ p, config.subscript u = .ok (accountNode p) ∧ (u, p) ∈ accounts) := by
  by_cases hne : accounts = []
  · subst hne
    exact ⟨.null, h.text_eq ▸ hL.load_nil, .inl ⟨rfl, by simp⟩⟩
  · exact ⟨accountsNode accounts, h.text_eq ▸ hL.load_blocks _ hne h.nodup h.valid,
      subscript_accountsNode h.nodup⟩

lemma Written.password_eq (h : Written L text accounts) {q : Bytes} (hp : (u, p) ∈ accounts)
    (hq : (u, q) ∈ accounts) : q = p := by
  have := List.eq_of_map_nodup h.nodup hp hq rfl
  exact (Prod.mk.inj this).2.symm

lemma Written.registered_iff (hL : YamlLaws L) (h : Written L text accounts) :
    Registered L text u ↔ u ∈ accounts.map Prod.fst := by
  obtain ⟨config, hload, ⟨hsub, hmem⟩ | ⟨p, hsub, hmem⟩⟩ := h.lookup hL u
  · refine iff_of_false ?_ hmem
    rintro ⟨config', user, hload', huser, hdef⟩
    cases hload.symm.trans hload'
    cases hsub.symm.trans huser
    cases hdef
  · exact iff_of_true ⟨config, _, hload, hsub, rfl⟩ (List.mem_map_of_mem hmem)

lemma accountNode_subscript (p : Bytes) :
    (accountNode p).subscript (ascii "password") = .ok (.scalar p) := rfl

lemma Written.stored_iff (hL : YamlLaws L) (h : Written L text accounts) :
    Stored L text u p ↔ (u, p) ∈ accounts := by
  obtain ⟨config, hload, ⟨hsub, hmem⟩ | ⟨q, hsub, hmem⟩⟩ := h.lookup hL u
  · refine iff_of_false (fun hs => ?_) fun hp => hmem (List.mem_map_of_mem hp)
    exact hmem ((h.registered_iff hL).mp hs.registered)
  · constructor
    · rintro ⟨config', user, password, hload', huser, -, hpass, -, hstr⟩
      cases hload.symm.trans hload'
      cases hsub.symm.trans huser
      cases (accountNode_subscript q).symm.trans hpass
      cases hstr
      exact hmem
    · intro hp
      cases h.password_eq hmem hp
      exact ⟨config, _, _, hload, hsub, rfl, accountNode_subscript p, rfl, rfl⟩

/-- In a written file every lookup ends, and it decides by the stored password. -/
lemma Written.requestOfCredentials_eq (hL : YamlLaws L) (h : Written L text accounts) :
    requestOfCredentials L text u p = .ok
      (if (u, p) ∈ accounts then .login u
      else if u ∈ accounts.map Prod.fst then .wrongPassword
      else .register u p) := by
  obtain ⟨config, hload, ⟨hsub, hmem⟩ | ⟨q, hsub, hmem⟩⟩ := h.lookup hL u
  · have hp : (u, p) ∉ accounts := fun hp => hmem (List.mem_map_of_mem hp)
    rw [requestOfCredentials, hload, if_neg hp, if_neg hmem]
    dsimp only
    rw [hsub]
    rfl
  · have hu : u ∈ accounts.map Prod.fst := List.mem_map_of_mem hmem
    rw [requestOfCredentials, hload, if_pos hu]
    dsimp only
    rw [hsub, ok_bind, if_pos (by rfl), accountNode_subscript, ok_bind, if_pos (by rfl)]
    by_cases hq : q = p
    · subst hq
      rw [if_pos hmem]
      exact if_pos rfl
    · rw [if_neg fun hp => hq (h.password_eq hp hmem)]
      exact if_neg hq

end OpenSimp
