import Mathlib.Data.List.Nodup
import OpenSimp.Clients.Cpp
import OpenSimp.Toy.Library

/-!
# Words and commands

The lexers of the server and of the C++ client leave the words of a text in their array. The server
looks the first word up among its commands, whose names differ however they were registered, so
that at most one of them runs.
-/

namespace OpenSimp

open Bytes FaultState ServerNetwork

/-! ### The lexers -/

/-- The array `arr` after the words of `s` were written to its front. -/
def written (s : Bytes) (divider : Byte) (arr : List Bytes) : List Bytes :=
  s.splitOn divider ++ List.replicate (arr.length - (s.count divider + 1)) []

lemma lex_of_empty {s : Bytes} {divider : Byte} {arr : List Bytes}
    (hempty : ∀ word ∈ arr, word = []) (hroom : s.count divider < arr.length) :
    Lexer.lex s arr divider = .ok (written s divider arr) := by
  obtain ⟨n, hn⟩ : ∃ n, arr.length = n + 1 := ⟨arr.length - 1, by omega⟩
  have harr : arr = List.replicate (n + 1) [] := by
    rw [← hn]
    exact List.eq_replicate_of_mem hempty
  have hfree : n + 1 - (s.count divider + 1) = n - s.count divider := by omega
  rw [written, hn, hfree, harr, Lexer.lex_eq, if_pos (by omega)]

/-- Both lexers are the same function, and leave the words of the text at the front of an empty
array that has room for them. -/
theorem lexers_split :
    (∀ s arr divider, Cpp.lexer s arr divider = Lexer.lex s arr divider) ∧
    ∀ (s : Bytes) (divider : Byte) (arr : List Bytes), (∀ word ∈ arr, word = []) →
      s.count divider < arr.length → ∃ arr',
        Lexer.lex s arr divider = .ok arr' ∧ Cpp.lexer s arr divider = .ok arr' ∧
        arr'.length = arr.length ∧
        arr'.take (s.count divider + 1) = s.splitOn divider ∧
        (∀ word ∈ arr'.drop (s.count divider + 1), word = []) ∧
        [divider].intercalate (arr'.take (s.count divider + 1)) = s := by
  refine ⟨fun _ _ _ => rfl, fun s divider arr hempty hroom => ?_⟩
  have hlex := lex_of_empty hempty hroom
  have hwords := length_splitOn s divider
  have htake : (written s divider arr).take (s.count divider + 1) = s.splitOn divider := by
    rw [written, ← hwords, List.take_left]
  refine ⟨written s divider arr, hlex, hlex, ?_, htake, ?_, ?_⟩
  · rw [written, List.length_append, List.length_replicate, hwords]
    omega
  · intro word hword
    rw [written, ← hwords, List.drop_left] at hword
    exact (List.mem_replicate.mp hword).2
  · rw [htake, List.intercalate_splitOn]

/-- A text with a separator in front, two in the middle and one at the end. -/
theorem lexers_split_blanks : ∃ arr',
    Lexer.lex (ascii " a  b ") (List.replicate 7 []) space = .ok arr' ∧
    Cpp.lexer (ascii " a  b ") (List.replicate 7 []) space = .ok arr' ∧
    arr'.length = 7 ∧ arr'.take 5 = (ascii " a  b ").splitOn space ∧
    (∀ word ∈ arr'.drop 5, word = []) ∧ [space].intercalate (arr'.take 5) = ascii " a  b " :=
  lexers_split.2 (ascii " a  b ") space (List.replicate 7 [])
    (fun _ h => (List.mem_replicate.mp h).2) (by decide)

/-! ### The registry -/

namespace Executor

/-- `ExecutableCommand::setExecutor`. The assertion on `m_constructed` holds of every command. -/
def setExecutor (e : ExecutableCommand) (mCmds : List ExecutableCommand) :
    Except Fault (List ExecutableCommand) :=
  pushNewCommand mCmds e

/-- The registries that calls of `setExecutor` and `pushNewCommand` build from the empty one. -/
inductive Registry : List ExecutableCommand → Prop where
  | empty : Registry []
  | pushNewCommand {mCmds mCmds' : List ExecutableCommand} {e : ExecutableCommand} :
      Registry mCmds → pushNewCommand mCmds e = .ok mCmds' → Registry mCmds'
  | setExecutor {mCmds mCmds' : List ExecutableCommand} {e : ExecutableCommand} :
      Registry mCmds → setExecutor e mCmds = .ok mCmds' → Registry mCmds'

lemma pushNewCommand_eq_ok {mCmds mCmds' : List ExecutableCommand} {e : ExecutableCommand}
    (h : pushNewCommand mCmds e = .ok mCmds') :
    mCmds' = mCmds ++ [e] ∧ e.cmd ∉ mCmds.map (·.cmd) := by
  rw [pushNewCommand] at h
  split_ifs at h with hdup
  cases h
  refine ⟨rfl, fun hmem => hdup ?_⟩
  obtain ⟨x, hx, hname⟩ := List.mem_map.mp hmem
  exact List.any_eq_true.mpr ⟨x, hx, beq_iff_eq.mpr hname⟩

lemma nodup_push {mCmds mCmds' : List ExecutableCommand} {e : ExecutableCommand}
    (hnodup : (mCmds.map (·.cmd)).Nodup) (h : pushNewCommand mCmds e = .ok mCmds') :
    (mCmds'.map (·.cmd)).Nodup := by
  obtain ⟨rfl, hfresh⟩ := pushNewCommand_eq_ok h
  rw [List.map_append, List.map_singleton]
  exact hnodup.append (List.nodup_singleton _) (List.disjoint_singleton.mpr hfresh)

/-- No two commands of a registry have the same name. -/
lemma Registry.nodup {mCmds : List ExecutableCommand} (h : Registry mCmds) :
    (mCmds.map (·.cmd)).Nodup := by
  induction h with
  | empty => exact List.nodup_nil
  | pushNewCommand _ hpush ih => exact nodup_push ih hpush
  | setExecutor _ hset ih => exact nodup_push ih hset

lemma registry_of_foldlM {mCmds mCmds' es : List ExecutableCommand} (hmCmds : Registry mCmds)
    (h : es.foldlM Executor.pushNewCommand mCmds = .ok mCmds') : Registry mCmds' := by
  induction es generalizing mCmds with
  | nil =>
    cases h
    exact hmCmds
  | cons e es ih =>
    rw [List.foldlM_cons] at h
    obtain ⟨mCmds₁, hpush, hrest⟩ := bind_eq_ok h
    exact ih (.pushNewCommand hmCmds hpush) hrest

/-- `init` builds a registry. -/
lemma registry_commands (w : World) : Registry (commands w) :=
  registry_of_foldlM .empty (foldlM_pushNewCommand w)

/-! ### Dispatch -/

section Dispatch

variable {w : World} {command : List Bytes} {sock : Sock} {iter : ℕ} {xs : List ExecutableCommand}

/-- Commands of other names leave the loop as it is. -/
lemma foldlM_tryCommand_of_ne (h : ∀ x ∈ xs, x.cmd ≠ command.getD 0 []) (executed : Bool) :
    xs.foldlM (tryCommand command sock iter) executed = pure executed := by
  induction xs with
  | nil => rfl
  | cons x xs ih =>
    have hx : command.getD 0 [] ≠ x.cmd := (h x List.mem_cons_self).symm
    rw [List.foldlM_cons, tryCommand, if_neg hx, pure_bind]
    exact ih fun y hy => h y (List.mem_cons_of_mem x hy)

/-- The loop runs the one command of the name. -/
lemma foldlM_tryCommand_of_eq {x : ExecutableCommand} {ys : List ExecutableCommand}
    (hx : x.cmd = command.getD 0 []) (hxs : ∀ y ∈ xs, y.cmd ≠ command.getD 0 [])
    (hys : ∀ y ∈ ys, y.cmd ≠ command.getD 0 []) :
    (xs ++ x :: ys).foldlM (tryCommand command sock iter) false =
      (x.fn sock iter command >>= fun _ => pure true) := by
  rw [List.foldlM_append, foldlM_tryCommand_of_ne hxs, pure_bind, List.foldlM_cons, tryCommand,
    if_pos hx.symm, if_neg Bool.false_ne_true]
  simp only [bind_assoc, pure_bind, foldlM_tryCommand_of_ne hys]

/-- `iterate` once the text is split. -/
lemma iterate_of_lex {mCmds : List ExecutableCommand} {e : Bytes}
    (hlex : Lexer.lex e (List.replicate slots []) space = .ok command) :
    iterate w mCmds e sock iter = (do
      let executed ← mCmds.foldlM (tryCommand command sock iter) false
      if executed then
        pure ()
      else
        sendString w
          (ascii "Command " ++ e ++ ascii " was not found. Type /help to get help.") sock) := by
  rw [iterate, hlex]
  rfl

/-- In a registry no other command has the name of `x`. -/
lemma ne_of_nodup {x : ExecutableCommand} {ys : List ExecutableCommand} {name : Bytes}
    (hx : x.cmd = name) (hnodup : ((xs ++ x :: ys).map (·.cmd)).Nodup) :
    (∀ y ∈ xs, y.cmd ≠ name) ∧ ∀ y ∈ ys, y.cmd ≠ name := by
  subst hx
  rw [List.map_append, List.map_cons, List.nodup_middle, List.nodup_cons, List.mem_append] at hnodup
  refine ⟨fun y hy heq => hnodup.1 (.inl ?_), fun y hy heq => hnodup.1 (.inr ?_)⟩
  all_goals exact heq ▸ List.mem_map_of_mem hy

/-- The argument slots of `iterate` for the command text `e`. -/
def arguments (e : Bytes) : List Bytes :=
  e.splitOn space ++ List.replicate (slots - (e.splitOn space).length) []

lemma lex_arguments {e : Bytes} (he : e.count space < slots) :
    Lexer.lex e (List.replicate slots []) space = .ok (arguments e) := by
  have hfree : 511 - e.count space = slots - (e.count space + 1) := by
    rw [slots]
    omega
  rw [lex_slots, if_pos (Nat.le_of_lt_succ he), arguments, length_splitOn, hfree]

lemma getD_arguments (e : Bytes) : (arguments e).getD 0 [] = e.takeWhile (· ≠ space) := by
  rw [arguments, Cpp.getD_append_replicate_nil, getD_splitOn_zero]

end Dispatch

/-- The command whose name is the text before the first blank runs once, on the words of the text.
When there is none, the sender is told so. -/
theorem iterate_of_registry (w : World) {mCmds : List ExecutableCommand} (hmCmds : Registry mCmds)
    {e : Bytes} (he : e.count space < 512) (sock : Sock) (iter : ℕ) :
    (e.splitOn space ++ List.replicate (512 - (e.splitOn space).length) []).length = 512 ∧
    (∀ x ∈ mCmds, x.cmd = e.takeWhile (· ≠ space) →
      (∀ y ∈ mCmds, y.cmd = e.takeWhile (· ≠ space) → y = x) ∧
      mCmds.countP (·.cmd = e.takeWhile (· ≠ space)) = 1 ∧
      iterate w mCmds e sock iter = (do
        let _ ← x.fn sock iter
          (e.splitOn space ++ List.replicate (512 - (e.splitOn space).length) [])
        pure ())) ∧
    ((∀ x ∈ mCmds, x.cmd ≠ e.takeWhile (· ≠ space)) →
      iterate w mCmds e sock iter = sendString w
        (ascii "Command " ++ e ++ ascii " was not found. Type /help to get help.") sock) := by
  have hlex := lex_arguments he
  have hname := getD_arguments e
  refine ⟨?_, fun x hx hcmd => ?_, fun hnone => ?_⟩
  · have hwords := length_splitOn e space
    rw [List.length_append, List.length_replicate]
    omega
  · obtain ⟨xs, ys, rfl⟩ := List.append_of_mem hx
    rw [← hname] at hcmd ⊢
    obtain ⟨hxs, hys⟩ := ne_of_nodup hcmd hmCmds.nodup
    refine ⟨fun y hy heq => ?_, ?_, ?_⟩
    · rcases List.mem_append.mp hy with hy | hy
      · exact absurd heq (hxs y hy)
      · exact (List.mem_cons.mp hy).resolve_right fun hy => hys y hy heq
    · have hnone : ∀ zs : List ExecutableCommand, (∀ z ∈ zs, z.cmd ≠ (arguments e).getD 0 []) →
          zs.countP (·.cmd = (arguments e).getD 0 []) = 0 := fun zs hzs => by
        simpa [List.countP_eq_zero] using hzs
      rw [List.countP_append, List.countP_cons, hnone xs hxs, hnone ys hys, if_pos (by simpa)]
    · rw [iterate_of_lex hlex, foldlM_tryCommand_of_eq hcmd hxs hys]
      simp only [bind_assoc, pure_bind, if_true]
      rfl
  · rw [iterate_of_lex hlex, foldlM_tryCommand_of_ne (hname.symm ▸ hnone), pure_bind]
    rfl

/-- `help` runs on its name and a blank, with an empty argument. -/
theorem iterate_of_registry_help :
    iterate (Toy.world .done [] 0) (commands (Toy.world .done [] 0)) (ascii "help ") 5 0 = (do
      let _ ← help (Toy.world .done [] 0) 5 0
        ((ascii "help ").splitOn space ++ List.replicate (512 - 2) [])
      pure ()) :=
  ((iterate_of_registry (Toy.world .done [] 0) (registry_commands _) (e := ascii "help ")
    (by decide) 5 0).2.1 ⟨ascii "help", help _⟩ List.mem_cons_self (by decide)).2.2

end Executor

end OpenSimp
