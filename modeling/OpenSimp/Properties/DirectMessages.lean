import OpenSimp.Properties.Chat

/-!
# Direct messages

The text of a `msg` command is split at its blanks and joined again slot by slot, which gives it
back with blanks after it. The recipient is the only client with its alias, so that it gets the
message once.
-/

namespace OpenSimp

open Bytes FaultState System ServerNetwork

variable {R R' : Room} {L : Library} {w : World} {i : ℕ} {r r' : Row} {x t : Bytes}

/-! ### The text -/

/-- The command that sends `t` to `x`. -/
def msgCommand (x t : Bytes) : Bytes := ascii "msg " ++ x ++ ascii " " ++ t

/-- What the recipient reads of the text `t`, with `n` blanks after it. -/
def readText (t : Bytes) (n : ℕ) : Bytes :=
  cstr t ++ if (0 : Byte) ∈ t then [] else List.replicate n space

lemma splitOn_msgCommand (hx : space ∉ x) (t : Bytes) :
    (msgCommand x t).splitOn space = ascii "msg" :: x :: t.splitOn space := by
  have hmsg : space ∉ ascii "msg" := by decide
  have hcommand : msgCommand x t = ascii "msg" ++ space :: (x ++ space :: t) := by
    simp [msgCommand, ascii, space]
  rw [hcommand, List.splitOn_append_cons_self_of_not_mem hmsg,
    List.splitOn_append_cons_self_of_not_mem hx]

/-- The slots of the executor for a message. -/
def msgArgs (x t : Bytes) : List Bytes :=
  ascii "msg" :: x :: (t.splitOn space ++
    List.replicate (511 - (msgCommand x t).count space) [])

lemma lex_msgCommand (hx : space ∉ x) (hroom : (msgCommand x t).count space ≤ 511) :
    Lexer.lex (msgCommand x t) (List.replicate Executor.slots []) space = .ok (msgArgs x t) := by
  rw [Executor.lex_slots, if_pos hroom, splitOn_msgCommand hx]
  rfl

/-- Joining the slots gives the text and a blank for each slot after it. -/
lemma directText_msgArgs (hroom : (msgCommand x t).count space ≤ 511) (sender : Bytes) :
    directText x sender (msgArgs x t) =
      ascii "[" ++ x ++ ascii " -> " ++ sender ++ ascii "]: " ++
        (t ++ List.replicate (512 - (msgCommand x t).count space) space) := by
  have hfree : 512 - (msgCommand x t).count space =
      511 - (msgCommand x t).count space + 1 := by omega
  rw [directText_eq, hfree, List.replicate_succ]
  simp only [msgArgs, List.drop_succ_cons, List.drop_zero, List.flatMap_append, flatMap_splitOn,
    flatMap_replicate_nil, List.append_assoc, List.singleton_append]

lemma cstr_append_replicate_space (t : Bytes) (n : ℕ) :
    cstr (t ++ List.replicate n space) = readText t n := by
  have hblanks : (0 : Byte) ∉ List.replicate n space := by
    intro h
    exact absurd (List.eq_of_mem_replicate h) (by decide)
  by_cases h0 : (0 : Byte) ∈ t
  · rw [cstr_append_of_nul_mem h0, readText, if_pos h0, List.append_nil]
  · rw [cstr_append h0, cstr_of_nul_not_mem hblanks, readText, if_neg h0, cstr_of_nul_not_mem h0]

/-- The packet that the recipient gets. -/
lemma directPacket_msg (hroom : (msgCommand x t).count space ≤ 511) {sender : Bytes}
    (hx : (0 : Byte) ∉ x) (hsender : (0 : Byte) ∉ sender) :
    directPacket (directText x sender (msgArgs x t)) =
      .sealed (ascii "6" ++ [separator] ++
        (ascii "[" ++ x ++ ascii " -> " ++ sender ++ ascii "]: ") ++
        readText t (512 - (msgCommand x t).count space)) := by
  have hhead : (0 : Byte) ∉ ascii "6" ++ [separator] ++
      (ascii "[" ++ x ++ ascii " -> " ++ sender ++ ascii "]: ") := by
    simp only [List.mem_append, not_or]
    exact ⟨⟨by decide, by decide⟩, ⟨⟨⟨by decide, hx⟩, by decide⟩, hsender⟩, by decide⟩
  rw [directPacket, directText_msgArgs hroom, ← List.append_assoc, cstr_append hhead,
    cstr_append_replicate_space]

/-! ### The recipient -/

/-- An alias is the alias of one row. -/
lemma Room.Named.count_clientid (hN : R.Named) {target : Row} (hmem : target ∈ R.rows)
    (hs : target.clientid ≠ sentinel) : (R.rows.map (·.clientid)).count target.clientid = 1 := by
  obtain ⟨xs, ys, hrows⟩ := List.append_of_mem hmem
  have hnodup : (xs ++ target :: ys).Nodup := hrows ▸ R.nodup_sock.of_map
  rw [List.nodup_middle, List.nodup_cons, List.mem_append, not_or] at hnodup
  have hnone : ∀ zs : List Row, zs ⊆ R.rows → target ∉ zs →
      (zs.map (·.clientid)).count target.clientid = 0 := by
    intro zs hsub htarget
    apply List.count_eq_zero_of_not_mem
    intro hid
    obtain ⟨z, hz, heq⟩ := List.mem_map.mp hid
    exact htarget (hN.unique target hmem z (hsub hz) heq.symm hs ▸ hz)
  rw [hrows, List.map_append, List.map_cons, List.count_append, List.count_cons_self,
    hnone xs (by simp [hrows]) hnodup.1.1, hnone ys (by simp [hrows]) hnodup.1.2]

lemma Room.Named.find?_clientid (hN : R.Named) {target : Row} (hmem : target ∈ R.rows)
    (hs : target.clientid ≠ sentinel) :
    R.rows.find? (·.clientid = target.clientid) = some target := by
  cases hfind : R.rows.find? (·.clientid = target.clientid) with
  | none =>
    rw [List.find?_eq_none] at hfind
    exact absurd (by simp) (hfind target hmem)
  | some target' =>
    have hid : target'.clientid = target.clientid := by simpa using List.find?_some hfind
    rw [hN.unique target' (List.mem_of_find?_eq_some hfind) target hmem hid (hid ▸ hs)]

/-- The effects of a message go by the sockets and aliases of the rows only. -/
lemma Room.msgActs_congr
    (hrows : (R'.rows.map fun r => (r.sock, r.clientid)) = R.rows.map fun r => (r.sock, r.clientid))
    (hsock : r'.sock = r.sock) (hid : r'.clientid = r.clientid) (args : List Bytes) :
    R'.msgActs r' args = R.msgActs r args := by
  have hids : R'.rows.map (·.clientid) = R.rows.map (·.clientid) := by
    simpa [List.map_map, Function.comp_def] using congrArg (List.map Prod.snd) hrows
  have hfind : (R'.rows.find? (·.clientid = args.getD 1 [])).map (fun r => (r.sock, r.clientid)) =
      (R.rows.find? (·.clientid = args.getD 1 [])).map fun r => (r.sock, r.clientid) := by
    have h := congrArg (List.find? fun x : Sock × Bytes => x.2 = args.getD 1 []) hrows
    rwa [List.find?_map, List.find?_map] at h
  rw [Room.msgActs, Room.msgActs, hsock, hid, hids]
  split_ifs
  · rfl
  · rfl
  · cases hR' : R'.rows.find? (·.clientid = args.getD 1 []) with
    | none =>
      rw [hR'] at hfind
      rw [Option.map_eq_none_iff.mp hfind.symm]
    | some target' =>
      rw [hR'] at hfind
      obtain ⟨target, hR, heq⟩ := Option.map_eq_some_iff.mp hfind.symm
      have hto : target.sock = target'.sock := (Prod.mk.inj heq).1
      simp only [hR, hto]

/-! ### Delivery -/

/-- What the message `t` to `x` from row `i`, which is `r`, sends: the text to the row with the
alias, a notice to the sender if it is its own alias, and nothing if it is nobody's. -/
structure Config.SendsDirect (c : Config) (i : ℕ) (r : Row) (x t : Bytes) (acts : List Act) :
    Prop where
  other : ∀ k target, k ≠ i → c.row? k = some target → target.clientid = x → x ≠ sentinel →
    acts = [.sent target.sock (.sealed (ascii "6" ++ [separator] ++
      (ascii "[" ++ x ++ ascii " -> " ++ r.clientid ++ ascii "]: ") ++
      readText t (512 - (msgCommand x t).count space)))]
  self : x = r.clientid →
    acts = [.sent r.sock (directPacket (ascii "You cannot send message to yourself"))]
  nobody : (x = sentinel ∨ ∀ k target, c.row? k = some target → target.clientid ≠ x) → acts = []

lemma Room.sendsDirect_msgActs (hN : R.Named) (hr : R.rows[i]? = some r) (hdone : r.status = .done)
    (hroom : (msgCommand x t).count space ≤ 511) :
    R.config.SendsDirect i r x t (R.msgActs r (msgArgs x t)) := by
  have hmem := List.mem_of_getElem? hr
  have hundone : r.status ≠ .undone := by
    intro h
    cases hdone.symm.trans h
  have hvalid := (hN.named r hmem).valid hundone
  have hx : (msgArgs x t).getD 1 [] = x := rfl
  constructor
  · rintro k target hk htarget rfl hs
    rw [Room.config_row?] at htarget
    have hmem' := List.mem_of_getElem? htarget
    have hne : target.clientid ≠ r.clientid := by
      intro heq
      have hsame := hN.unique target hmem' r hmem heq hs
      exact hk (List.index_eq_of_map_nodup R.nodup_sock htarget hr (hsame ▸ rfl))
    rw [Room.msgActs, hx, if_neg hs, if_neg hne, hN.find?_clientid hmem' hs,
      hN.count_clientid hmem' hs,
      directPacket_msg hroom (hN.validAlias hmem' hs).nul_not_mem hvalid.nul_not_mem]
    rfl
  · rintro rfl
    have hs : r.clientid ≠ sentinel := fun h => not_validAlias_sentinel (h ▸ hvalid)
    rw [Room.msgActs, hx, if_neg hs, if_pos rfl]
  · intro hnobody
    rw [Room.msgActs, hx]
    split_ifs with hs hself
    · rfl
    · rcases hnobody with hs' | hnone
      · exact absurd hs' hs
      · exact absurd hself.symm (hnone i r (by rw [Room.config_row?, hr]))
    · rcases hnobody with hs' | hnone
      · exact absurd hs' hs
      · have hfind : R.rows.find? (·.clientid = x) = none := by
          rw [List.find?_eq_none]
          intro target htarget
          obtain ⟨k, hk⟩ := List.mem_iff_getElem?.mp htarget
          simpa using hnone k target (by rw [Room.config_row?, hk])
        rw [hfind]

lemma Room.commandActs_msgCommand (hx : space ∉ x) (hroom : (msgCommand x t).count space ≤ 511) :
    R.commandActs r (msgCommand x t) = .ok (R.msgActs r (msgArgs x t)) := by
  have hname : (msgArgs x t).getD 0 [] = ascii "msg" := rfl
  rw [Room.commandActs, lex_msgCommand hx hroom, ok_bind, hname, if_neg (by decide),
    if_neg (by decide), if_pos rfl]
  rfl

lemma Room.msgActs_polled (args : List Bytes) :
    (R.polled w i r).msgActs (r.polled w) args = R.msgActs r args := by
  apply Room.msgActs_congr _ Row.polled_sock Row.polled_clientid
  have h := congrArg (List.map fun x : Sock × Bytes × AuthStatus => (x.1, x.2.1))
    (Room.polled_same (R := R) (w := w) (i := i) (r := r))
  simpa [List.map_map, Function.comp_def] using h

/-- A direct message reaches the client with the alias and nobody else, when the server runs the
command and in every poll that brings it. -/
theorem direct_message_delivered (L : Library) {userdata : Bytes} {c : Config}
    (h : (server L).Reachable (Config.init userdata) c) (hr : c.row? i = some r)
    (hdone : r.status = .done) {x t : Bytes} (hx : space ∉ x)
    (hwords : ((msgCommand x t).splitOn space).length < 512) (w : World) :
    (∃ m, (handleCommand w (53 :: msgCommand x t) r.sock i).run c.machine = .ok ((), m) ∧
      c.SendsDirect i r x t m.acts) ∧
    (SendsPlaintext L w r (53 :: msgCommand x t) → Admissible (53 :: msgCommand x t) →
      ∃ m, (Event.code L (.receive i w)).run c.machine = .ok ((), m) ∧
        c.SendsDirect i r x t m.acts) := by
  obtain ⟨R, hR, rfl⟩ := reachable_lift h
  have hN := Room.named_of_reachable hR
  rw [Room.config_row?] at hr
  have hroom : (msgCommand x t).count space ≤ 511 := by
    rw [length_splitOn] at hwords
    omega
  have hsends := Room.sendsDirect_msgActs hN hr hdone hroom
  refine ⟨?_, fun hplain hadm => ?_⟩
  · have hrun := handleCommand_run hr L w (53 :: msgCommand x t)
    rw [List.drop_succ_cons, List.drop_zero, Room.respond, Room.commandActs_msgCommand hx hroom,
      ok_bind] at hrun
    exact ⟨_, hrun, hsends⟩
  · have hreq := Room.request_of_sends (R := R) hplain
    rw [requestOfPlaintext_of_command hadm] at hreq
    have hrun := Room.code_receive_run hr L w
    rw [Room.serve, hreq, ok_bind, Room.respond, Room.commandActs_msgCommand hx hroom,
      ok_bind] at hrun
    refine ⟨_, hrun, ?_⟩
    have hacts := Room.msgActs_polled (R := R) (w := w) (i := i) (r := r) (msgArgs x t)
    exact hacts.symm ▸ hsends

/-- Alice's message to Bob, with two blanks in it. -/
def Toy.whispers : World :=
  world .done (seals (53 :: msgCommand (ascii "bob") (ascii "hi  you"))) 1000

theorem direct_message_delivered_toy :
    ∃ steps c m, play toy (Config.init []) Toy.twoClients = some (steps, c) ∧
      (Event.code toy (.receive 0 Toy.whispers)).run c.machine = .ok ((), m) ∧
      m.acts = [.sent 2 (.sealed (ascii "6" ++ [separator] ++
        (ascii "[" ++ ascii "bob" ++ ascii " -> " ++ ascii "alice" ++ ascii "]: ") ++
        readText (ascii "hi  you") 508))] := by
  have hsome : (play toy (Config.init []) Toy.twoClients).map
      (fun x => (x.2.row? 0, x.2.row? 1)) =
      some (some ⟨⟨ascii "alice", false, .done, 0⟩, 0, 1⟩,
        some ⟨⟨ascii "bob", false, .done, 0⟩, 1, 2⟩) := by decide +kernel
  obtain ⟨⟨steps, c⟩, hplay, heq⟩ := Option.map_eq_some_iff.mp hsome
  obtain ⟨halice, hbob⟩ := Prod.mk.inj heq
  have hdelivered := (direct_message_delivered toy (run_of_play hplay).reachable halice rfl
    (x := ascii "bob") (t := ascii "hi  you") (by decide) (by decide) Toy.whispers).2
  obtain ⟨m, hrun, hsends⟩ := hdelivered
    (Toy.sendsPlaintext rfl rfl (by decide)) ⟨by decide, by decide⟩
  exact ⟨steps, c, m, hplay, hrun, hsends.other 1 _ (by decide) hbob rfl (by decide)⟩

end OpenSimp
