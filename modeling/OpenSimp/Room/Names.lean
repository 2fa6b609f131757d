import OpenSimp.Room.Outcome
import OpenSimp.Room.System

/-!
# Aliases and statuses

The invariant of the room that ties a client's alias to its progress: a client has no alias until
it is logged in, has a valid one from then on, and shares it with nobody.
-/

namespace OpenSimp

open Bytes System

/-- A row whose alias fits its status. -/
structure Row.Named (r : Row) : Prop where
  undone_iff : r.status = .undone ↔ r.clientid = sentinel
  valid : r.status ≠ .undone → ValidAlias r.clientid
  ne_failed : r.status ≠ .failed

structure Room.Named (R : Room) : Prop where
  named : ∀ r ∈ R.rows, r.Named
  unique : ∀ r ∈ R.rows, ∀ r' ∈ R.rows, r.clientid = r'.clientid → r.clientid ≠ sentinel → r = r'

lemma not_validAlias_sentinel : ¬ ValidAlias sentinel := by decide

variable {R R' : Room} {L : Library} {i : ℕ} {r : Row}

lemma Row.Named.eq_done (h : r.Named) (hundone : r.status ≠ .undone)
    (hkey : r.status ≠ .keyReceived) : r.status = .done := by
  cases hs : r.status with
  | undone => exact absurd hs hundone
  | keyReceived => exact absurd hs hkey
  | failed => exact absurd hs h.ne_failed
  | done => rfl

/-- A client past the first stage has a valid alias. -/
lemma Row.named_of_validAlias (hvalid : ValidAlias r.clientid) (hundone : r.status ≠ .undone)
    (hfailed : r.status ≠ .failed) : r.Named where
  undone_iff := iff_of_false hundone fun h => not_validAlias_sentinel (h ▸ hvalid)
  valid := fun _ => hvalid
  ne_failed := hfailed

lemma Row.Named.update (h : r.Named) {f : Profile → Profile}
    (hf : ∀ p, (f p).clientid = p.clientid ∧ (f p).status = p.status) : (r.update f).Named := by
  obtain ⟨hid, hstatus⟩ := hf r.toProfile
  constructor
  · rw [Row.update, hid, hstatus]
    exact h.undone_iff
  · rw [Row.update, hid, hstatus]
    exact h.valid
  · rw [Row.update, hstatus]
    exact h.ne_failed

lemma Room.named_init (userdata : Bytes) : (Room.init userdata).Named :=
  ⟨by simp [Room.init], by simp [Room.init]⟩

lemma Room.Named.of_subset (h : R.Named) (hsub : R'.rows ⊆ R.rows) : R'.Named :=
  ⟨fun r hr => h.named r (hsub hr), fun r hr r' hr' => h.unique r (hsub hr) r' (hsub hr')⟩

lemma Room.Named.connect (h : R.Named) {p : Sock} (now : ℕ) (hp : R.live p = false) :
    (R.connect p now hp).Named where
  named := by
    intro r hr
    rcases List.mem_append.mp hr with hr | hr
    · exact h.named r hr
    · rw [List.mem_singleton.mp hr]
      exact ⟨iff_of_true rfl rfl, fun hs => absurd rfl hs, by simp [Row.fresh]⟩
  unique := by
    have hfresh : (Row.fresh R.accepted p now).clientid = sentinel := rfl
    intro r hr r' hr' heq hne
    rcases List.mem_append.mp hr with hr | hr
    · rcases List.mem_append.mp hr' with hr' | hr'
      · exact h.unique r hr r' hr' heq hne
      · rw [List.mem_singleton.mp hr', hfresh] at heq
        exact absurd heq hne
    · rw [List.mem_singleton.mp hr, hfresh] at hne
      exact absurd rfl hne

/-- Changing a row keeps the invariant when the row gets no alias that another has. -/
lemma Room.Named.modify (h : R.Named) (hr : R.rows[i]? = some r) {f : Profile → Profile}
    (hrows : R'.rows = R.rows.modify i (Row.update f)) (hnamed : (r.update f).Named)
    (hid : (r.update f).clientid = r.clientid ∨ (r.update f).clientid ∉ R.rows.map (·.clientid)) :
    R'.Named where
  named := by
    intro r' hr'
    rw [hrows] at hr'
    rcases (List.mem_modify_iff_of_map_nodup R.nodup_conn hr).mp hr' with rfl | ⟨hmem, -⟩
    · exact hnamed
    · exact h.named r' hmem
  unique := by
    have hne : ∀ r' ∈ R.rows, r'.conn ≠ r.conn → (r.update f).clientid = r'.clientid →
        (r.update f).clientid = sentinel := by
      intro r' hr' hconn heq
      by_contra hs
      rcases hid with hid | hid
      · rw [hid] at heq hs
        exact hconn (h.unique r (List.mem_of_getElem? hr) r' hr' heq hs ▸ rfl)
      · exact hid (heq ▸ List.mem_map_of_mem hr')
    intro r₁ hr₁ r₂ hr₂ heq hs
    rw [hrows] at hr₁ hr₂
    rcases (List.mem_modify_iff_of_map_nodup R.nodup_conn hr).mp hr₁ with rfl | ⟨hmem₁, hconn₁⟩
    · rcases (List.mem_modify_iff_of_map_nodup R.nodup_conn hr).mp hr₂ with rfl | ⟨hmem₂, hconn₂⟩
      · rfl
      · exact absurd (hne r₂ hmem₂ hconn₂ heq) hs
    · rcases (List.mem_modify_iff_of_map_nodup R.nodup_conn hr).mp hr₂ with rfl | ⟨hmem₂, -⟩
      · exact absurd (heq.trans (hne r₁ hmem₁ hconn₁ heq.symm)) hs
      · exact h.unique r₁ hmem₁ r₂ hmem₂ heq hs

lemma Room.Named.validAlias (h : R.Named) {r' : Row} (hr' : r' ∈ R.rows)
    (hs : r'.clientid ≠ sentinel) : ValidAlias r'.clientid :=
  (h.named r' hr').valid fun hundone => hs ((h.named r' hr').undone_iff.mp hundone)

/-- Every step of the room keeps aliases and statuses together. -/
lemma Room.Named.step (h : R.Named) {e : Event} {o : Obs} (hstep : Room.Step L R e o R') :
    R'.Named := by
  cases hstep with
  | accepted hp hstatus => exact h.connect _ hp
  | declined hp hstatus => exact h
  | @served i w r q hr hserve =>
    have hrow := h.named r (List.mem_of_getElem? hr)
    obtain ⟨req, hreq, hout⟩ := Room.serve_outcome hserve
    have hfits := Room.request_fits hreq
    cases hout with
    | quiet hc hf => exact h.modify hr hc.rows (hrow.update hf) (.inl (hf r.toProfile).1)
    | renamed hc ha hf =>
      obtain ⟨hid, hstatus⟩ := hf r.toProfile
      refine h.modify hr hc.rows (Row.named_of_validAlias ?_ ?_ ?_) (.inr ?_)
      · exact hid.symm ▸ ha.2
      · exact fun hs => hfits.1 (hstatus.symm.trans hs)
      · exact fun hs => hrow.ne_failed (hstatus.symm.trans hs)
      · exact fun hmem => ha.1 (hid ▸ hmem)
    | loggedIn hc ha hf | registered hc ha hf =>
      obtain ⟨hid, hstatus⟩ := hf r.toProfile
      refine h.modify hr hc.rows (Row.named_of_validAlias ?_ ?_ ?_) (.inr ?_)
      · exact hid.symm ▸ ha.2
      · exact fun hs => by cases hstatus.symm.trans hs
      · exact fun hs => by cases hstatus.symm.trans hs
      · exact fun hmem => ha.1 (hid ▸ hmem)
    | keyed hc hf =>
      obtain ⟨hid, hstatus⟩ := hf r.toProfile
      have hundone : r.status ≠ .undone := fun hs => by cases hs.symm.trans hfits
      refine h.modify hr hc.rows (Row.named_of_validAlias ?_ ?_ ?_) (.inl hid)
      · exact hid.symm ▸ hrow.valid hundone
      · exact fun hs => by cases hstatus.symm.trans hs
      · exact fun hs => by cases hstatus.symm.trans hs
    | refusedKey hc | dropped hc =>
      exact h.of_subset (hc.rows ▸ List.eraseIdx_subset)

lemma Room.named_of_reachable {userdata : Bytes}
    (h : (room L).Reachable (Room.init userdata) R) : R.Named :=
  h.invariant Room.Named (Room.named_init userdata) fun _ _ _ _ hR hstep => hR.step hstep

end OpenSimp
