import OpenSimp.Room.Accounts
import OpenSimp.Room.Emission
import OpenSimp.Room.System

/-!
# Registered accounts

`userdata.yml` is always the file of the accounts registered so far, whatever else the clients do.
-/

namespace OpenSimp

open Bytes FaultState System ServerNetwork

variable {R R' : Room} {L : Library} {w : World} {i : ℕ} {r : Row} {req : Request} {q : Reply}
  {text u p : Bytes} {accounts : List (Bytes × Bytes)}

/-- The accounts that an event's effects register. -/
def registrations (acts : List Act) : List (Bytes × Bytes) :=
  acts.filterMap fun
    | .registered username password => some (username, password)
    | _ => none

lemma mem_registrations {acts : List Act} :
    (u, p) ∈ registrations acts ↔ .registered u p ∈ acts := by
  rw [registrations, List.mem_filterMap]
  constructor
  · rintro ⟨a, ha, heq⟩
    cases a with
    | registered => cases heq; exact ha
    | broadcast | sent | disconnected => cases heq
  · exact fun h => ⟨_, h, rfl⟩

lemma registrations_append (as bs : List Act) :
    registrations (as ++ bs) = registrations as ++ registrations bs := List.filterMap_append

lemma registrations_broadcastActs (rows : List Row) (data : Bytes) (exclude : Endpoint) :
    registrations (broadcastActs w rows data exclude) = [] := by
  rw [registrations, broadcastActs, List.filterMap_cons_none rfl, List.filterMap_map,
    List.filterMap_eq_nil_iff]
  exact fun _ _ => rfl

/-- A poll registers one account and writes it to the file, or does neither. -/
inductive Reply.Registers (q : Reply) (R : Room) (L : Library) : Request → Prop where
  | one {u p : Bytes} (hu : R.Admits u)
      (huserdata : q.room.userdata = registeredText L R.userdata u p)
      (hacts : registrations q.acts = [(u, p)]) : Registers q R L (.register u p)
  | none {req : Request} (hreq : ∀ u p, req = .register u p → ¬ R.Admits u)
      (huserdata : q.room.userdata = R.userdata) (hacts : registrations q.acts = []) :
      Registers q R L req

/-- Effects that do not come from registering a user register nobody. -/
lemma registrations_eq_nil {acts : List Act} (h : ∀ a ∈ acts, R.Emission L w i r req a)
    (hreq : ∀ u p, req = .register u p → ¬ R.Admits u) : registrations acts = [] := by
  rw [List.eq_nil_iff_forall_not_mem]
  rintro ⟨u, p⟩ hmem
  cases h _ (mem_registrations.mp hmem) with
  | registered hu => exact hreq u p rfl hu

lemma Room.serve_registers (hr : R.rows[i]? = some r) (hreq : R.request L w r = .ok req)
    (h : R.serve L w i r = .ok q) : q.Registers R L req := by
  have hemission := fun a => Room.serve_emission (a := a) hr hreq h
  by_cases hregister : ∃ u p, req = .register u p ∧ R.Admits u
  · obtain ⟨u, p, rfl, hu⟩ := hregister
    rw [Room.serve, hreq, ok_bind, Room.respond,
      if_pos ((Room.polled_admits u).mpr hu)] at h
    cases h
    refine .one hu ?_ ?_
    · exact congrArg (fun text => registeredText L text u p) Room.polled_userdata
    · simp only [Reply.keep, Room.joinActs, registrations_append, registrations_broadcastActs]
      rfl
  · have hrefused : ∀ u p, req = .register u p → ¬ R.Admits u :=
      fun u p heq hu => hregister ⟨u, p, heq, hu⟩
    have hnone : registrations q.acts = [] := registrations_eq_nil hemission hrefused
    obtain ⟨req', hreq', hout⟩ := Room.serve_outcome h
    cases hreq.symm.trans hreq'
    cases hout with
    | registered _ ha => exact absurd ⟨_, _, rfl, ha⟩ hregister
    | quiet _ _ _ huserdata | renamed _ _ _ _ huserdata | loggedIn _ _ _ _ huserdata
    | keyed _ _ _ huserdata => exact .none hrefused huserdata hnone
    | refusedKey hc | dropped hc => exact .none hrefused hc.userdata hnone

/-- A step leaves the file of the accounts there were and the ones it registers. -/
lemma Room.Step.written (hL : YamlLaws L) {e : Event} {o : Obs} (h : Room.Step L R e o R')
    (hw : Written L R.userdata accounts) :
    Written L R'.userdata (accounts ++ registrations o.acts) := by
  cases h with
  | accepted hp hstatus => simpa [registrations, Room.connect] using hw
  | declined hp hstatus => simpa [registrations] using hw
  | served hr hserve =>
    obtain ⟨req, hreq, -⟩ := Room.serve_outcome hserve
    cases Room.serve_registers hr hreq hserve with
    | one hu huserdata hacts =>
      have hnew := (hw.registered_iff hL).not.mp (Room.request_register hreq).2
      rw [huserdata, hacts]
      exact hw.append hL hu.2 hnew _
    | none _ huserdata hacts =>
      rw [huserdata, hacts, List.append_nil]
      exact hw

/-- Nobody registers with an empty password. -/
lemma Room.Step.password_ne (h : Room.Step L R e o R') (hp : (u, p) ∈ registrations o.acts) :
    p ≠ [] := by
  cases h with
  | accepted | declined => cases hp
  | served hr hserve =>
    obtain ⟨req, hreq, -⟩ := Room.serve_outcome hserve
    cases Room.serve_registers hr hreq hserve with
    | none _ _ hacts =>
      have hmem : (u, p) ∈ ([] : List (Bytes × Bytes)) := hacts ▸ hp
      cases hmem
    | one hu huserdata hacts =>
      cases List.mem_singleton.mp (hacts ▸ hp)
      obtain ⟨decstr, -, -, -, -, hne⟩ := (Room.request_register hreq).1
      exact hne

/-- The accounts registered in a run. -/
def registrationsIn {σ : Type} (steps : List (Step σ Event Obs)) : List (Bytes × Bytes) :=
  steps.flatMap fun st => registrations st.obs.acts

lemma Room.written_of_run (hL : YamlLaws L) {steps : List (System.Step Room Event Obs)}
    (hw : Written L text accounts) (h : (room L).Run (Room.init text) steps R) :
    Written L R.userdata (accounts ++ registrationsIn steps) := by
  induction h with
  | nil => simpa [registrationsIn, Room.init] using hw
  | snoc _ hstep ih =>
    rw [registrationsIn, List.flatMap_append, List.flatMap_singleton, ← List.append_assoc]
    exact Room.Step.written hL hstep ih

lemma registrationsIn_map (steps : List (Step Room Event Obs)) :
    registrationsIn (steps.map (Step.map Room.config)) = registrationsIn steps := by
  rw [registrationsIn, List.flatMap_map]
  rfl

end OpenSimp
