import OpenSimp.Clients.Cpp
import OpenSimp.Clients.Rust
import OpenSimp.Room.Outcome

/-!
# Slash commands

Both clients send a line with a slash as a command. The Rust client sends the text after the slash;
the C++ client moves it forward in the buffer of a string that keeps its length, and so sends a NUL
after it. The server compares commands with that NUL, and finds none.
-/

namespace OpenSimp

open Bytes FaultState ServerNetwork

variable {c : Bytes}

/-- The plaintext `d` hands the command `c` to the executor, which runs it if it is registered. -/
structure Arrives (c d : Bytes) : Prop where
  plaintext : d = ascii "5" ++ c
  handed : requestOfPlaintext d = .command c
  runs : c ∈ commandNames → ∃ args,
    Lexer.lex c (List.replicate Executor.slots []) space = .ok args ∧ args.getD 0 [] = c

/-- The command `c` arrives from both clients, and they send the same for it. -/
structure Survives (c : Bytes) : Prop where
  cpp : Arrives c (Cpp.userInput (47 :: c))
  rust : ∀ uwuify s, Rust.intoBytes s = c →
    ∃ d, (Rust.sendMessage uwuify ('/' :: s)).2 = some d ∧ Arrives c d ∧
      d = Cpp.userInput (47 :: c)

/-- A command passes the server's tests with a NUL after it or without one. -/
lemma admissible_command {d : Bytes} (hd : cstr d = c) (hsep : separator ∉ c)
    (hlen : d.length + 28 ≤ maxRawData) : Admissible (53 :: d) where
  check := by
    apply decide_eq_true
    rw [cstr_cons, if_neg (by decide), hd, List.mem_cons, not_or]
    exact ⟨by decide, hsep⟩
  length_lt := by
    rw [maxRawData] at hlen
    rw [List.length_cons]
    omega

lemma commandNames_words :
    ∀ n ∈ commandNames, space ∉ n ∧ space ∉ n ++ [0] ∧ n ++ [0] ∉ commandNames := by decide

lemma arrives_command (h0 : (0 : Byte) ∉ c) (hsep : separator ∉ c)
    (hlen : c.length + 29 ≤ maxRawData) : Arrives c (ascii "5" ++ c) where
  plaintext := rfl
  handed := by
    have hadm := admissible_command (cstr_of_nul_not_mem h0) hsep (by omega)
    exact requestOfPlaintext_of_command hadm
  runs := fun hname => ⟨_, Executor.lex_word (commandNames_words c hname).1, rfl⟩

/-- No command is found when a NUL is read with it. -/
lemma unknown_of_nul {args : List Bytes} (hname : c ∈ commandNames)
    (hargs : Lexer.lex (c ++ [0]) (List.replicate Executor.slots []) space = .ok args) :
    args.getD 0 [] ∉ commandNames := by
  obtain ⟨-, hblank, hunknown⟩ := commandNames_words c hname
  cases (Executor.lex_word hblank).symm.trans hargs
  exact hunknown

/-- No command survives: the Rust client's always arrives, and the C++ client sends a NUL with it,
with which no registered command is found. -/
theorem commands_never_survive (h0 : (0 : Byte) ∉ c) (hsep : separator ∉ c)
    (hlen : c.length + 29 ≤ maxRawData) :
    ¬ Survives c ∧ requestOfPlaintext (Cpp.userInput (47 :: c)) = .command (c ++ [0]) ∧
      (∀ uwuify s, Rust.intoBytes s = c →
        ∃ d, (Rust.sendMessage uwuify ('/' :: s)).2 = some d ∧ Arrives c d) ∧
      (c ∈ commandNames → ∀ args,
        Lexer.lex (c ++ [0]) (List.replicate Executor.slots []) space = .ok args →
        args.getD 0 [] ∉ commandNames) := by
  have hcpp := Cpp.userInput_slash h0
  have hcstr : cstr (c ++ [0]) = c := by
    rw [cstr_append h0]
    exact List.append_nil c
  refine ⟨fun h => ?_, ?_, ?_, fun hname args => unknown_of_nul hname⟩
  · have heq := hcpp.symm.trans h.cpp.plaintext
    have hlength := congrArg List.length heq
    simp at hlength
  · rw [hcpp]
    have hadm := admissible_command hcstr hsep (by simpa using hlen)
    exact requestOfPlaintext_of_command hadm
  · rintro uwuify s rfl
    exact ⟨_, by rw [Rust.sendMessage_slash], arrives_command h0 hsep hlen⟩

theorem commands_never_survive_help :
    ¬ Survives (ascii "help") ∧
      requestOfPlaintext (Cpp.userInput (ascii "/help")) = .command (ascii "help" ++ [0]) := by
  have h := commands_never_survive (c := ascii "help") (by decide) (by decide) (by decide)
  exact ⟨h.1, h.2.1⟩

/-- `/help` of the C++ client. -/
theorem not_survives_help :
    ¬ ∀ c : Bytes, (0 : Byte) ∉ c → separator ∉ c → c.length + 29 ≤ maxRawData → Survives c := by
  intro h
  have hplaintext := (h (ascii "help") (by decide) (by decide) (by decide)).cpp.plaintext
  exact absurd hplaintext (by decide)

end OpenSimp
