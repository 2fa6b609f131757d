import OpenSimp.Server.Network

/-!
# The lexer, the command executor and the registered commands
-/

namespace OpenSimp

open Bytes FaultState

namespace Lexer

/-- `arg[i] = word` on an array of strings. -/
def store (arg : List Bytes) (i : ℕ) (word : Bytes) : Except Fault (List Bytes) :=
  if i < arg.length then .ok (arg.set i word) else .error .outOfBounds

/-- The lexer's variables: the array, the slot being filled and the word read so far. -/
structure State where
  arg : List Bytes
  i : ℕ
  word : Bytes

/-- One character. At a separator the finished word is written to the next slot and overwritten
there by the empty word. -/
def step (seprator : Byte) (s : State) (x : Byte) : Except Fault State :=
  if x = seprator then do
    let arg ← store s.arg (s.i + 1) s.word
    let arg ← store arg (s.i + 1) []
    pure ⟨arg, s.i + 1, []⟩
  else do
    let arg ← store s.arg s.i (s.word ++ [x])
    pure ⟨arg, s.i, s.word ++ [x]⟩

/-- `Lexer::lex`: the array after the call. -/
def lex (str : Bytes) (arg : List Bytes) (seprator : Byte) : Except Fault (List Bytes) := do
  let s ← str.foldlM (step seprator) ⟨arg, 0, []⟩
  pure s.arg

section Words

variable (seprator : Byte)

/-- Where the lexer ends when it is filling the slot after `pre` and has read `word`, and `m` more
slots are free: with the words of the rest in the slots, or past the end of the array. -/
def wordsFrom (str word : Bytes) (pre : List Bytes) (m : ℕ) : Except Fault (List Bytes) :=
  if str.count seprator ≤ m then
    .ok (pre ++ (str.splitOn seprator).modifyHead (word ++ ·) ++
      List.replicate (m - str.count seprator) [])
  else .error .outOfBounds

lemma store_head {pre rest : List Bytes} {old word : Bytes} :
    store (pre ++ old :: rest) pre.length word = .ok (pre ++ word :: rest) := by
  simp [store]

lemma step_seprator_succ {pre : List Bytes} {word : Bytes} {m : ℕ} :
    step seprator ⟨pre ++ word :: List.replicate (m + 1) [], pre.length, word⟩ seprator =
      .ok ⟨(pre ++ [word]) ++ [] :: List.replicate m [], (pre ++ [word]).length, []⟩ := by
  have hslots : pre ++ word :: List.replicate (m + 1) [] =
      (pre ++ [word]) ++ [] :: List.replicate m [] := by
    simp [List.replicate_succ]
  have hlen : pre.length + 1 = (pre ++ [word]).length := by simp
  rw [step, if_pos rfl, hslots, hlen, store_head, ok_bind, store_head, ok_bind]
  rfl

lemma step_seprator_zero {pre : List Bytes} {word : Bytes} :
    step seprator ⟨pre ++ [word], pre.length, word⟩ seprator = .error .outOfBounds := by
  have hstore : store (pre ++ [word]) (pre.length + 1) word = .error .outOfBounds := by
    simp [store]
  rw [step, if_pos rfl, hstore, error_bind]

lemma step_of_ne {pre rest : List Bytes} {word : Bytes} {x : Byte} (hx : x ≠ seprator) :
    step seprator ⟨pre ++ word :: rest, pre.length, word⟩ x =
      .ok ⟨pre ++ (word ++ [x]) :: rest, pre.length, word ++ [x]⟩ := by
  rw [step, if_neg hx, store_head, ok_bind]
  rfl

lemma foldlM_step (str word : Bytes) (pre : List Bytes) (m : ℕ) :
    (str.foldlM (step seprator) ⟨pre ++ word :: List.replicate m [], pre.length, word⟩).map
      State.arg = wordsFrom seprator str word pre m := by
  induction str generalizing word pre m with
  | nil =>
    simp only [List.foldlM_nil, wordsFrom, List.splitOn_nil, List.modifyHead_cons,
      List.count_nil, Nat.zero_le, if_true, List.append_nil, Nat.sub_zero]
    simp [pure, Except.pure, Except.map]
  | cons x str ih =>
    rw [List.foldlM_cons]
    by_cases hx : x = seprator
    · subst hx
      cases m with
      | zero =>
        rw [List.replicate_zero, step_seprator_zero, error_bind, wordsFrom,
          List.count_cons_self, if_neg (by omega)]
        rfl
      | succ m =>
        have hsplit : (x :: str).splitOn x = [] :: str.splitOn x := by
          simp [List.splitOn_cons_eq_if_modifyHead]
        have hid : (fun rest : Bytes => [] ++ rest) = id := rfl
        rw [step_seprator_succ, ok_bind, ih, wordsFrom, wordsFrom, hsplit, List.count_cons_self,
          hid, List.modifyHead_id]
        simp [List.append_assoc]
    · have hsplit : (x :: str).splitOn seprator =
          (str.splitOn seprator).modifyHead (x :: ·) := by
        simp [List.splitOn_cons_eq_if_modifyHead, hx]
      rw [step_of_ne _ hx, ok_bind, ih, wordsFrom, wordsFrom, hsplit, List.count_cons_of_ne hx,
        List.modifyHead_modifyHead]
      simp [Function.comp_def]

end Words

/-- The lexer fills the array with the words of the text and leaves the other slots empty; a text
with more words than slots is written past the end. -/
lemma lex_eq (str : Bytes) (seprator : Byte) (n : ℕ) :
    lex str (List.replicate (n + 1) []) seprator =
      if str.count seprator ≤ n then
        .ok (str.splitOn seprator ++ List.replicate (n - str.count seprator) [])
      else .error .outOfBounds := by
  have h := foldlM_step seprator str [] [] n
  have hid : (fun word : Bytes => [] ++ word) = id := rfl
  rw [wordsFrom, hid, List.modifyHead_id] at h
  rw [lex, ← List.nil_append (str.splitOn seprator), ← id_eq (str.splitOn seprator), ← h]
  rfl

end Lexer

inductive CmdStatus where
  | ok
  | failed
  | error
  deriving DecidableEq

structure ExecutableCommand where
  cmd : Bytes
  fn : Sock → ℕ → List Bytes → M CmdStatus

namespace Executor

variable (w : World)

/-- The number of argument slots of `Executor::iterate`. -/
def slots : ℕ := 512

lemma lex_slots (e : Bytes) :
    Lexer.lex e (List.replicate slots []) space =
      if e.count space ≤ 511 then
        .ok (e.splitOn space ++ List.replicate (511 - e.count space) [])
      else .error .outOfBounds :=
  Lexer.lex_eq e space 511

/-- A text without a blank is its own first word. -/
lemma lex_word {word : Bytes} (hblank : space ∉ word) :
    Lexer.lex word (List.replicate slots []) space = .ok ([word] ++ List.replicate 511 []) := by
  rw [lex_slots, List.count_eq_zero_of_not_mem hblank, if_pos (Nat.zero_le _),
    List.splitOn_eq_singleton hblank]

/-- `Executor::pushNewCommand`: the registry after the call. -/
def pushNewCommand (mCmds : List ExecutableCommand) (e : ExecutableCommand) :
    Except Fault (List ExecutableCommand) :=
  if mCmds.any (·.cmd == e.cmd) then .error .assertion else .ok (mCmds ++ [e])

/-- The body of `iterate`'s loop. An `ERROR` status is only logged. -/
def tryCommand (command : List Bytes) (sock : Sock) (iter : ℕ) (executed : Bool)
    (x : ExecutableCommand) : M Bool :=
  if command.getD 0 [] = x.cmd then do
    if executed then throw .assertion
    let _ ← x.fn sock iter command
    pure true
  else
    pure executed

/-- `Executor::iterate`. -/
def iterate (mCmds : List ExecutableCommand) (e : Bytes) (sock : Sock) (iter : ℕ) : M Unit := do
  let command ← ofExcept (Lexer.lex e (List.replicate slots []) space)
  let executed ← mCmds.foldlM (tryCommand command sock iter) false
  if executed then
    pure ()
  else
    ServerNetwork.sendString w
      (ascii "Command " ++ e ++ ascii " was not found. Type /help to get help.") sock

end Executor

namespace ServerNetwork

variable (w : World)

/-- The names of the commands `init` registers, which `help` lists. -/
def commandNames : List Bytes := [ascii "help", ascii "plugins", ascii "msg"]

/-- `help`. -/
def help (sock : Sock) (_iterator : ℕ) (args : List Bytes) : M CmdStatus :=
  if args.getD 1 [] = [] then do
    sendString w (commandNames.foldl (fun toSend x => toSend ++ (ascii "/" ++ x ++ ascii " "))
      (ascii "Avail commands: ")) sock
    pure .ok
  else do
    sendString w (ascii "Multiple args is not supported by the command: help") sock
    pure .error

/-- `plugins`. -/
def plugins (sock : Sock) (_iterator : ℕ) (_args : List Bytes) : M CmdStatus := do
  sendString w (ascii "Plugins (0): ") sock
  pure .ok

/-- `getIndex`. -/
def getIndex (v : List Bytes) (k : Bytes) : Option ℕ := v.idxOf? k

/-- The text of a direct message: every argument slot from the third on, each followed by a
blank. -/
def directText (x sender : Bytes) (args : List Bytes) : Bytes :=
  (args.drop 2).foldl (fun toSend arg => toSend ++ (arg ++ [space]))
    (ascii "[" ++ x ++ ascii " -> " ++ sender ++ ascii "]: ")

lemma directText_eq (x sender : Bytes) (args : List Bytes) :
    directText x sender args = ascii "[" ++ x ++ ascii " -> " ++ sender ++ ascii "]: " ++
      (args.drop 2).flatMap (· ++ [space]) := by
  rw [directText]
  generalize ascii "[" ++ x ++ ascii " -> " ++ sender ++ ascii "]: " = toSend
  induction args.drop 2 generalizing toSend with
  | nil => simp
  | cons arg args ih => rw [List.foldl_cons, ih, List.flatMap_cons, List.append_assoc]

/-- The body of `msg`'s loop over the aliases. -/
def msgTo (iterator : ℕ) (args : List Bytes) (x : Bytes) : M Unit :=
  if args.getD 1 [] = x then do
    let sender ← clientidArray.index iterator
    let clientids ← clientidArray.elements
    -- an alias that is not found would convert -1 to an index outside the vector
    let position ← ofOption .outOfBounds (getIndex clientids x)
    sendStringAt w (directText x sender args) position
  else
    pure ()

/-- `msg`. -/
def msg (_sock : Sock) (iterator : ℕ) (args : List Bytes) : M CmdStatus :=
  if args.getD 1 [] = sentinel then
    pure .error
  else do
    let own ← clientidArray.index iterator
    if args.getD 1 [] = own then
      sendStringAt w (ascii "You cannot send message to yourself") iterator
      pure .ok
    else
      let clientids ← clientidArray.elements
      clientids.forM (msgTo w iterator args)
      pure .ok

/-- The registry after `init`. -/
def commands : List ExecutableCommand :=
  [⟨ascii "help", help w⟩, ⟨ascii "plugins", plugins w⟩, ⟨ascii "msg", msg w⟩]

/-- `init` registers the commands one after the other, and no two names collide. -/
lemma foldlM_pushNewCommand :
    (commands w).foldlM Executor.pushNewCommand [] = .ok (commands w) := by
  simp [commands, Executor.pushNewCommand, ascii]

end ServerNetwork

end OpenSimp
