import Mathlib.Data.List.Forall2
import Mathlib.Tactic.Common

/-!
# Labelled transition systems

A `System` steps on events and lets an observer see something of each step. A `Run` records every
step it took, so that a statement about "earlier in the run" is a statement about the list of
recorded steps. `Run.invariant` is the induction rule over runs, `Run.after` the one for what holds
from a certain step on. `Run.lift` and `Run.map` carry runs between an embedded system and the
system it is embedded in, `Run.filterMap` projects a run to a system that sees some of its steps,
`Run.view` to a part of the system, and `Run.unwind` is the rule for two runs that look alike.
`play` takes the steps of a list of events, for runs that are computed.
-/

/-- A transition system over states `σ`, events `ε` and observations `ω`. -/
structure System (σ ε ω : Type*) where
  step : σ → ε → ω → σ → Prop

/-- One recorded step. -/
structure System.Step (σ ε ω : Type*) where
  pre : σ
  event : ε
  obs : ω
  post : σ

namespace System

variable {σ τ ε ω : Type*}

/-- A part of a system: what of the state belongs to it, and what some of the events are for it. -/
structure View (σ ε τ ε' : Type*) where
  state : σ → τ
  event : ε → Option ε'

namespace View

variable {ε' υ ε'' : Type*} (V : View σ ε τ ε')

/-- What the part does in a step, if anything. -/
def step (st : Step σ ε ω) : Option (Step τ ε' ω) :=
  (V.event st.event).map fun e => ⟨V.state st.pre, e, st.obs, V.state st.post⟩

def steps (l : List (Step σ ε ω)) : List (Step τ ε' ω) := l.filterMap V.step

variable {V} {W : View τ ε' υ ε''}

lemma steps_append (before after : List (Step σ ε ω)) :
    V.steps (before ++ after) = V.steps before ++ V.steps after := List.filterMap_append

lemma mem_steps {l : List (Step σ ε ω)} {st' : Step τ ε' ω} : st' ∈ V.steps l ↔
    ∃ st ∈ l, ∃ e, V.event st.event = some e ∧
      ⟨V.state st.pre, e, st.obs, V.state st.post⟩ = st' := by
  simp only [steps, step, List.mem_filterMap, Option.map_eq_some_iff]

/-- A part of a part is a part. -/
lemma steps_steps {V' : View σ ε υ ε''} (hstate : ∀ s, W.state (V.state s) = V'.state s)
    (hevent : ∀ e, (V.event e).bind W.event = V'.event e) (l : List (Step σ ε ω)) :
    W.steps (V.steps l) = V'.steps l := by
  rw [steps, steps, steps, List.filterMap_filterMap]
  refine List.filterMap_congr fun st _ => ?_
  rw [step, step, ← hevent]
  cases V.event st.event with
  | none => rfl
  | some e => rw [Option.map_some, Option.bind_some, Option.bind_some, step, hstate, hstate]

end View

/-- Runs of `T` from `s₀`: the steps taken, oldest first, and the state reached. -/
inductive Run (T : System σ ε ω) (s₀ : σ) : List (Step σ ε ω) → σ → Prop where
  | nil : Run T s₀ [] s₀
  | snoc {steps : List (Step σ ε ω)} {s s' : σ} {e : ε} {o : ω} (hrun : Run T s₀ steps s)
      (hstep : T.step s e o s') : Run T s₀ (steps ++ [⟨s, e, o, s'⟩]) s'

/-- The states some run reaches. -/
def Reachable (T : System σ ε ω) (s₀ s : σ) : Prop := ∃ steps, T.Run s₀ steps s

variable {T : System σ ε ω} {s₀ s : σ} {steps : List (Step σ ε ω)}

/-- What holds at the start and is preserved by every step holds at the end of every run. -/
lemma Run.invariant (I : σ → Prop) (h₀ : I s₀)
    (hstep : ∀ s e o s', I s → T.step s e o s' → I s') (h : T.Run s₀ steps s) : I s := by
  induction h with
  | nil => exact h₀
  | snoc _ hs ih => exact hstep _ _ _ _ ih hs

lemma Reachable.invariant (I : σ → Prop) (h₀ : I s₀)
    (hstep : ∀ s e o s', I s → T.step s e o s' → I s') (h : T.Reachable s₀ s) : I s := by
  obtain ⟨_, hrun⟩ := h
  exact hrun.invariant I h₀ hstep

lemma Run.cons {s' : σ} {e : ε} {o : ω} (hs : T.step s₀ e o s') (h : T.Run s' steps s) :
    T.Run s₀ (⟨s₀, e, o, s'⟩ :: steps) s := by
  induction h with
  | nil => exact Run.nil.snoc hs
  | snoc _ hs' ih => exact ih.snoc hs'

/-- Every recorded step was taken from a state that the steps before it reach. -/
lemma Run.split {pre post : List (Step σ ε ω)} {st : Step σ ε ω} (h : T.Run s₀ steps s)
    (hsteps : steps = pre ++ st :: post) :
    T.Run s₀ pre st.pre ∧ T.step st.pre st.event st.obs st.post := by
  induction h generalizing post with
  | nil => simp at hsteps
  | @snoc steps s s' e o hrun hs ih =>
    rcases List.eq_nil_or_concat post with rfl | ⟨post', last, rfl⟩
    · obtain ⟨rfl, hst⟩ := List.append_inj' hsteps rfl
      cases List.singleton_inj.mp hst
      exact ⟨hrun, hs⟩
    · have hsplit : steps ++ [⟨s, e, o, s'⟩] = (pre ++ st :: post') ++ [last] := by
        simpa using hsteps
      exact ih (List.append_inj' hsplit rfl).1

lemma Run.of_mem {st : Step σ ε ω} (h : T.Run s₀ steps s) (hst : st ∈ steps) :
    T.Reachable s₀ st.pre ∧ T.step st.pre st.event st.obs st.post := by
  obtain ⟨pre, post, rfl⟩ := List.append_of_mem hst
  exact ⟨⟨pre, (h.split rfl).1⟩, (h.split rfl).2⟩

/-- What the first `Q` step of a run brings about and every step preserves holds at the end of every
run with a `Q` step. -/
lemma Run.after {I : σ → Prop} {Q : Step σ ε ω → Prop}
    (hfirst : ∀ steps s e o s', T.Run s₀ steps s → (∀ st ∈ steps, ¬ Q st) → T.step s e o s' →
      Q ⟨s, e, o, s'⟩ → I s')
    (hstep : ∀ s e o s', I s → T.step s e o s' → I s') (h : T.Run s₀ steps s)
    (hQ : ∃ st ∈ steps, Q st) : I s := by
  induction h with
  | nil =>
    obtain ⟨st, hst, -⟩ := hQ
    cases hst
  | @snoc steps s s' e o hrun hs ih =>
    by_cases hbefore : ∃ st ∈ steps, Q st
    · exact hstep _ _ _ _ (ih hbefore) hs
    · have hnone : ∀ st ∈ steps, ¬ Q st := fun st hst hst' => hbefore ⟨st, hst, hst'⟩
      obtain ⟨st, hst, hst'⟩ := hQ
      rcases List.mem_append.mp hst with hst | hst
      · exact absurd hst' (hnone st hst)
      · rw [List.mem_singleton.mp hst] at hst'
        exact hfirst _ _ _ _ _ hrun hnone hs hst'

/-- What a step keeps exactly when it is a `Q` step holds after every step of a run exactly when all
its steps are `Q` steps. -/
lemma Run.forall_iff {P : List (Step σ ε ω) → σ → Prop} {Q : Step σ ε ω → Prop} (h₀ : P [] s₀)
    (hstep : ∀ steps s e o s', T.Run s₀ steps s → P steps s → T.step s e o s' →
      (P (steps ++ [⟨s, e, o, s'⟩]) s' ↔ Q ⟨s, e, o, s'⟩)) (h : T.Run s₀ steps s) :
    (∀ pre st post, steps = pre ++ st :: post → P (pre ++ [st]) st.post) ↔
      ∀ st ∈ steps, Q st := by
  induction h with
  | nil => simp
  | @snoc steps s s' e o hrun hs ih =>
    have hsteps : (∀ pre st post, steps = pre ++ st :: post → P (pre ++ [st]) st.post) →
        P steps s := by
      intro hall
      cases hrun with
      | nil => exact h₀
      | @snoc steps t s e o => exact hall steps ⟨t, e, o, s⟩ [] rfl
    constructor
    · intro hall st hst
      have hpre : ∀ pre st post, steps = pre ++ st :: post → P (pre ++ [st]) st.post := by
        rintro pre st post rfl
        exact hall pre st (post ++ [⟨s, e, o, s'⟩]) (by simp)
      rcases List.mem_append.mp hst with hst | hst
      · exact ih.mp hpre st hst
      · rw [List.mem_singleton.mp hst]
        exact (hstep _ _ _ _ _ hrun (hsteps hpre) hs).mp (hall steps _ [] rfl)
    · intro hall pre st post heq
      have hpre := ih.mpr fun st hst => hall st (List.mem_append_left _ hst)
      rcases List.eq_nil_or_concat post with rfl | ⟨post', last, rfl⟩
      · obtain ⟨rfl, hst⟩ := List.append_inj' heq rfl
        cases List.singleton_inj.mp hst
        exact (hstep _ _ _ _ _ hrun (hsteps hpre) hs).mpr (hall _ (by simp))
      · have hsplit : steps ++ [⟨s, e, o, s'⟩] = (pre ++ st :: post') ++ [last] := by
          simpa using heq
        exact hpre pre st post' (List.append_inj' hsplit rfl).1

lemma Run.reachable (h : T.Run s₀ steps s) : T.Reachable s₀ s := ⟨steps, h⟩

lemma Reachable.refl : T.Reachable s₀ s₀ := ⟨[], .nil⟩

lemma Reachable.snoc {s' : σ} {e : ε} {o : ω} (h : T.Reachable s₀ s) (hs : T.step s e o s') :
    T.Reachable s₀ s' := by
  obtain ⟨steps, hrun⟩ := h
  exact ⟨_, hrun.snoc hs⟩

/-- A step seen through a map of states. -/
def Step.map (f : τ → σ) (st : Step τ ε ω) : Step σ ε ω := ⟨f st.pre, st.event, st.obs, f st.post⟩

/-- `T` restricted to the image of `f` steps only as `A` does. -/
def Embeds (A : System τ ε ω) (T : System σ ε ω) (f : τ → σ) : Prop :=
  ∀ a e o s', T.step (f a) e o s' → ∃ a', s' = f a' ∧ A.step a e o a'

/-- A run that starts in the image of an embedding is the image of a run. -/
lemma Run.lift {A : System τ ε ω} {f : τ → σ} {a₀ : τ} (hf : Embeds A T f)
    (h : T.Run (f a₀) steps s) :
    ∃ asteps a, A.Run a₀ asteps a ∧ steps = asteps.map (Step.map f) ∧ s = f a := by
  induction h with
  | nil => exact ⟨[], a₀, .nil, rfl, rfl⟩
  | snoc _ hs ih =>
    obtain ⟨asteps, a, hrun, rfl, rfl⟩ := ih
    obtain ⟨a', rfl, hstep⟩ := hf a _ _ _ hs
    exact ⟨_, a', hrun.snoc hstep, by simp [Step.map], rfl⟩

/-- Where every step of `A` is one of `T`, every run of `A` is one of `T`. -/
lemma Run.map {A : System τ ε ω} {f : τ → σ} {a₀ a : τ} {asteps : List (Step τ ε ω)}
    (hf : ∀ a e o a', A.step a e o a' → T.step (f a) e o (f a')) (h : A.Run a₀ asteps a) :
    T.Run (f a₀) (asteps.map (Step.map f)) (f a) := by
  induction h with
  | nil => exact .nil
  | snoc _ hs ih =>
    rw [List.map_append]
    exact ih.snoc (hf _ _ _ _ hs)

lemma Reachable.lift {A : System τ ε ω} {f : τ → σ} {a₀ : τ} (hf : Embeds A T f)
    (h : T.Reachable (f a₀) s) : ∃ a, A.Reachable a₀ a ∧ s = f a := by
  obtain ⟨_, hrun⟩ := h
  obtain ⟨_, a, ha, _, rfl⟩ := hrun.lift hf
  exact ⟨a, ha.reachable, rfl⟩

section Projection

variable {ε' ω' : Type*} {A : System τ ε' ω'} {f : σ → τ}

/-- A run seen through `f` and `p` is a run if the steps that `p` shows are steps and `f` sees
nothing of the others. -/
lemma Run.filterMap {p : Step σ ε ω → Option (Step τ ε' ω')} (h : T.Run s₀ steps s)
    (hshown : ∀ st ∈ steps, ∀ st', p st = some st' →
      st'.pre = f st.pre ∧ st'.post = f st.post ∧ A.step st'.pre st'.event st'.obs st'.post)
    (hhidden : ∀ st ∈ steps, p st = none → f st.post = f st.pre) :
    A.Run (f s₀) (steps.filterMap p) (f s) := by
  induction h with
  | nil => exact .nil
  | @snoc steps s s' e o hrun hs ih =>
    have hpre := ih (fun st hst => hshown st (List.mem_append_left _ hst))
      (fun st hst => hhidden st (List.mem_append_left _ hst))
    have hlast : (⟨s, e, o, s'⟩ : Step σ ε ω) ∈ steps ++ [⟨s, e, o, s'⟩] :=
      List.mem_append_right _ (List.mem_singleton_self _)
    rw [List.filterMap_append]
    cases hp : p ⟨s, e, o, s'⟩ with
    | none =>
      have hsame : f s' = f s := hhidden _ hlast hp
      rw [List.filterMap_cons_none hp, List.filterMap_nil, List.append_nil, hsame]
      exact hpre
    | some st' =>
      obtain ⟨hst, hst', hstep⟩ := hshown _ hlast st' hp
      rw [List.filterMap_cons_some hp, List.filterMap_nil]
      obtain ⟨t, e', o', t'⟩ := st'
      cases hst
      cases hst'
      exact hpre.snoc hstep

/-- A part of a system runs as it does alone if its own steps are its steps alone, and all others
leave it as it is. -/
lemma Run.view {V : View σ ε τ ε'} {A : System τ ε' ω} (h : T.Run s₀ steps s)
    (hown : ∀ s e o s' e', T.step s e o s' → V.event e = some e' →
      A.step (V.state s) e' o (V.state s'))
    (hother : ∀ s e o s', T.step s e o s' → V.event e = none → V.state s' = V.state s) :
    A.Run (V.state s₀) (V.steps steps) (V.state s) := by
  refine h.filterMap (fun st hst st' hst' => ?_) fun st hst hnone => ?_
  · obtain ⟨e', he', rfl⟩ := Option.map_eq_some_iff.mp hst'
    exact ⟨rfl, rfl, hown _ _ _ _ _ (h.of_mem hst).2 he'⟩
  · exact hother _ _ _ _ (h.of_mem hst).2 (Option.map_eq_none_iff.mp hnone)

/-- A run is matched step by step by a run of a system that can match each of its steps. -/
lemma Run.simulate {rel : Step σ ε ω → Step τ ε' ω' → Prop} (h : T.Run s₀ steps s)
    (hsim : ∀ st ∈ steps, T.Reachable s₀ st.pre → T.step st.pre st.event st.obs st.post →
      ∃ e o, A.step (f st.pre) e o (f st.post) ∧ rel st ⟨f st.pre, e, o, f st.post⟩) :
    ∃ asteps, A.Run (f s₀) asteps (f s) ∧ List.Forall₂ rel steps asteps := by
  induction h with
  | nil => exact ⟨[], .nil, .nil⟩
  | @snoc steps s s' e o hrun hs ih =>
    obtain ⟨asteps, harun, hrel⟩ := ih fun st hst => hsim st (List.mem_append_left _ hst)
    obtain ⟨e', o', hstep, hlast⟩ := hsim ⟨s, e, o, s'⟩
      (List.mem_append_right _ (List.mem_singleton_self _)) ⟨steps, hrun⟩ hs
    exact ⟨_, harun.snoc hstep, List.rel_append hrel (.cons hlast .nil)⟩

/-- The unwinding rule of noninterference: where related steps from similar states look alike and
lead to similar states, two runs of related steps look alike and lead to similar states. -/
lemma Run.unwind {t₀ t : τ} {asteps : List (Step τ ε' ω')} {sim : σ → τ → Prop}
    {rel looks : Step σ ε ω → Step τ ε' ω' → Prop} (h : T.Run s₀ steps s) (ha : A.Run t₀ asteps t)
    (hrel : List.Forall₂ rel steps asteps) (h₀ : sim s₀ t₀)
    (hstep : ∀ st ast, T.Reachable s₀ st.pre → T.step st.pre st.event st.obs st.post →
      A.step ast.pre ast.event ast.obs ast.post → rel st ast → sim st.pre ast.pre →
      sim st.post ast.post ∧ looks st ast) :
    sim s t ∧ List.Forall₂ looks steps asteps := by
  induction h generalizing asteps t with
  | nil =>
    cases hrel
    generalize hnil : ([] : List (Step τ ε' ω')) = asteps at ha
    cases ha with
    | nil => exact ⟨h₀, .nil⟩
    | snoc _ _ => simp at hnil
  | @snoc steps s s' e o hrun hs ih =>
    cases ha with
    | nil => simpa using hrel.length_eq
    | @snoc asteps t t' e' o' harun hs' =>
      have hlen : steps.length = asteps.length := by simpa using hrel.length_eq
      have hinit := List.forall₂_take_append _ _ _ hrel
      have hlast := List.forall₂_drop_append _ _ _ hrel
      rw [← hlen, List.take_left] at hinit
      rw [← hlen, List.drop_left] at hlast
      obtain ⟨hsim, hlooks⟩ := ih harun hinit
      obtain ⟨hsim', hlook⟩ := hstep _ _ ⟨steps, hrun⟩ hs hs' (List.forall₂_cons.mp hlast).1 hsim
      exact ⟨hsim', List.rel_append hlooks (.cons hlook .nil)⟩

end Projection

/-! ### Computed runs -/

/-- Takes the steps of some events, one after the other, where `fire` takes a single step. -/
def play (fire : σ → ε → Option (Step σ ε ω)) : σ → List ε → Option (List (Step σ ε ω) × σ)
  | s, [] => some ([], s)
  | s, e :: es => do
    let st ← fire s e
    let (steps, s') ← play fire st.post es
    pure (st :: steps, s')

section Play

variable {fire : σ → ε → Option (Step σ ε ω)} {es : List ε}

lemma run_of_play
    (hfire : ∀ s e st, fire s e = some st →
      st.pre = s ∧ st.event = e ∧ T.step s e st.obs st.post)
    (h : play fire s₀ es = some (steps, s)) : T.Run s₀ steps s := by
  induction es generalizing s₀ steps with
  | nil =>
    cases h
    exact .nil
  | cons e es ih =>
    rw [play] at h
    obtain ⟨st, hst, h⟩ := Option.bind_eq_some_iff.mp h
    obtain ⟨⟨steps', s'⟩, hplay, h⟩ := Option.bind_eq_some_iff.mp h
    cases h
    obtain ⟨rfl, rfl, hstep⟩ := hfire _ _ _ hst
    exact (ih hplay).cons hstep

lemma map_event_of_play (hfire : ∀ s e st, fire s e = some st → st.event = e)
    (h : play fire s₀ es = some (steps, s)) : steps.map (·.event) = es := by
  induction es generalizing s₀ steps with
  | nil =>
    cases h
    rfl
  | cons e es ih =>
    rw [play] at h
    obtain ⟨st, hst, h⟩ := Option.bind_eq_some_iff.mp h
    obtain ⟨⟨steps', s'⟩, hplay, h⟩ := Option.bind_eq_some_iff.mp h
    cases h
    rw [List.map_cons, ih hplay, hfire _ _ _ hst]

end Play

end System
