import Mathlib.Tactic.Common

/-!
# Stateful programs that may fail

`Prog σ ε` is a program over the state `σ` that either returns or fails with `ε`. `Prog.run` is
what a caller sees of it; `Prog.exec` also has the state in which it failed. The rules below
evaluate one construct at a state, so that a program is run symbolically by rewriting with the
equations of the functions it calls, and `Prog.FaultsIn` describes the states in which a program
fails.
-/

namespace FaultState

variable {σ ε α β : Type}

/-- A program over the state `σ` that returns or fails with `ε`, each in some state. -/
def Prog (σ ε α : Type) : Type := StateT σ (Except (ε × σ)) α

namespace Prog

instance : Monad (Prog σ ε) := inferInstanceAs (Monad (StateT σ (Except (ε × σ))))

instance : LawfulMonad (Prog σ ε) := inferInstanceAs (LawfulMonad (StateT σ (Except (ε × σ))))

/-- A handler goes on in the state in which the program failed. -/
instance : MonadExceptOf ε (Prog σ ε) where
  throw e := fun s => .error (e, s)
  tryCatch x handler := fun s =>
    match x s with
    | .ok r => .ok r
    | .error (e, s') => handler e s'

/-- What the program does at a state, with the state at its end in either case. -/
def exec (x : Prog σ ε α) (s : σ) : Except (ε × σ) (α × σ) := x s

/-- What the program returns, or what it fails with. -/
def run (x : Prog σ ε α) (s : σ) : Except ε (α × σ) := (x.exec s).mapError Prod.fst

/-- The state in which the program returned or failed. -/
def final (x : Prog σ ε α) (s : σ) : σ :=
  match x.exec s with
  | .ok (_, s') => s'
  | .error (_, s') => s'

end Prog

@[simp] lemma ok_bind (a : α) (f : α → Except ε β) : (Except.ok a >>= f) = f a := rfl

@[simp] lemma error_bind (e : ε) (f : α → Except ε β) :
    ((Except.error e : Except ε α) >>= f) = .error e := rfl

/-- What a sequence returns, its second part returns on a result of its first. -/
lemma bind_eq_ok {x : Except ε α} {f : α → Except ε β} {b : β} (h : (x >>= f) = .ok b) :
    ∃ a, x = .ok a ∧ f a = .ok b := by
  cases x with
  | error e => cases h
  | ok a => exact ⟨a, rfl, h⟩

/-- A sequence fails in its first part, or in its second on a result of its first. -/
lemma bind_eq_error {x : Except ε α} {f : α → Except ε β} {e : ε} (h : (x >>= f) = .error e) :
    x = .error e ∨ ∃ a, x = .ok a ∧ f a = .error e := by
  cases x with
  | error e' =>
    cases h
    exact .inl rfl
  | ok a => exact .inr ⟨a, rfl, h⟩

/-- A value that must be there, or the fault `e`. -/
def orThrow (e : ε) : Option α → Except ε α
  | some a => .ok a
  | none => .error e

@[simp] lemma exec_pure (a : α) (s : σ) : (pure a : Prog σ ε α).exec s = .ok (a, s) := rfl

@[simp] lemma exec_throw (e : ε) (s : σ) : (throw e : Prog σ ε α).exec s = .error (e, s) := rfl

lemma exec_bind (x : Prog σ ε α) (f : α → Prog σ ε β) (s : σ) :
    (x >>= f).exec s = (x.exec s >>= fun r => (f r.1).exec r.2) := rfl

@[simp] lemma run_pure (a : α) (s : σ) : (pure a : Prog σ ε α).run s = .ok (a, s) := rfl

@[simp] lemma run_throw (e : ε) (s : σ) : (throw e : Prog σ ε α).run s = .error e := rfl

/-- The same as a program. -/
def ofOption (e : ε) : Option α → Prog σ ε α
  | some a => pure a
  | none => throw e

@[simp] lemma run_ofExcept_ok (a : α) (s : σ) :
    (ofExcept (.ok a) : Prog σ ε α).run s = .ok (a, s) := rfl

@[simp] lemma run_ofExcept_error (e : ε) (s : σ) :
    (ofExcept (.error e) : Prog σ ε α).run s = .error e := rfl

@[simp] lemma run_ofOption_some (e : ε) (a : α) (s : σ) :
    (ofOption e (some a) : Prog σ ε α).run s = .ok (a, s) := rfl

@[simp] lemma run_ofOption_none (e : ε) (s : σ) :
    (ofOption e none : Prog σ ε α).run s = .error e := rfl

lemma exec_eq_ok_iff {x : Prog σ ε α} {s : σ} {r : α × σ} :
    x.exec s = .ok r ↔ x.run s = .ok r := by
  rw [Prog.run]
  cases x.exec s with
  | ok r' => simp [Except.mapError]
  | error e => simp [Except.mapError]

lemma exec_eq_error_iff {x : Prog σ ε α} {s : σ} {e : ε} :
    (∃ s', x.exec s = .error (e, s')) ↔ x.run s = .error e := by
  rw [Prog.run]
  cases x.exec s with
  | ok r => simp [Except.mapError]
  | error e' => simp [Except.mapError, Prod.ext_iff]

lemma final_of_run {x : Prog σ ε α} {s s' : σ} {a : α} (h : x.run s = .ok (a, s')) :
    x.final s = s' := by
  rw [Prog.final, exec_eq_ok_iff.mpr h]

/-- Sequencing after a call whose result is known. -/
lemma run_bind_ok {x : Prog σ ε α} {f : α → Prog σ ε β} {s s' : σ} {a : α}
    (h : x.run s = .ok (a, s')) : (x >>= f).run s = (f a).run s' := by
  rw [Prog.run, exec_bind, exec_eq_ok_iff.mpr h, ok_bind, Prog.run]

/-- A failing call ends the program. -/
lemma run_bind_error {x : Prog σ ε α} {f : α → Prog σ ε β} {s : σ} {e : ε}
    (h : x.run s = .error e) : (x >>= f).run s = .error e := by
  obtain ⟨s', hexec⟩ := exec_eq_error_iff.mpr h
  rw [Prog.run, exec_bind, hexec, error_bind]
  rfl

/-- A conditional program runs the branch its condition selects. -/
lemma run_ite {c : Prop} [Decidable c] (x y : Prog σ ε α) (s : σ) :
    (if c then x else y).run s = if c then x.run s else y.run s := by
  split_ifs <;> rfl

/-! ### The states in which a program fails -/

/-- Wherever the program fails when it is run at `s`, the state has the property `P`. -/
def Prog.FaultsIn (P : σ → Prop) (x : Prog σ ε α) (s : σ) : Prop :=
  ∀ e s', x.exec s = .error (e, s') → P s'

section FaultsIn

variable {P : σ → Prop} {x : Prog σ ε α} {f : α → Prog σ ε β} {s s' : σ} {a : α}

/-- A program that returns fails nowhere. -/
lemma faultsIn_of_run (h : x.run s = .ok (a, s')) : x.FaultsIn P s := by
  intro e t hexec
  cases (exec_eq_ok_iff.mpr h).symm.trans hexec

lemma faultsIn_bind (h : x.run s = .ok (a, s')) (hf : (f a).FaultsIn P s') :
    (x >>= f).FaultsIn P s := by
  intro e t hexec
  rw [exec_bind, exec_eq_ok_iff.mpr h, ok_bind] at hexec
  exact hf e t hexec

/-- A call that fails, and the rest of the program that is not run. -/
lemma faultsIn_bind_error {e : ε} (h : x.run s = .error e) (hx : x.FaultsIn P s) :
    (x >>= f).FaultsIn P s := by
  obtain ⟨t, hexec⟩ := exec_eq_error_iff.mpr h
  intro e' t' hexec'
  rw [exec_bind, hexec, error_bind] at hexec'
  cases hexec'
  exact hx e t hexec

/-- A call that fails in the state it is called in, followed by the rest of the program. -/
lemma faultsIn_ofOption {e : ε} {o : Option α} (hs : P s)
    (hf : ∀ a, o = some a → (f a).FaultsIn P s) : (ofOption e o >>= f).FaultsIn P s := by
  cases o with
  | none =>
    rintro e' t ⟨⟩
    exact hs
  | some a => exact faultsIn_bind (run_ofOption_some e a s) (hf a rfl)

lemma faultsIn_ofExcept {o : Except ε α} (hs : P s)
    (hf : ∀ a, o = .ok a → (f a).FaultsIn P s) : (ofExcept o >>= f).FaultsIn P s := by
  cases o with
  | error e =>
    rintro e' t ⟨⟩
    exact hs
  | ok a => exact faultsIn_bind (run_ofExcept_ok a s) (hf a rfl)

lemma final_of_error {e : ε} (h : x.run s = .error e) (hfault : x.FaultsIn P s) :
    P (x.final s) := by
  obtain ⟨t, hexec⟩ := exec_eq_error_iff.mpr h
  rw [Prog.final, hexec]
  exact hfault e t hexec

end FaultsIn

end FaultState
