import OpenSimp.Properties.Decoding

/-!
# The announcements and the table

The joins and leaves that are announced should add up to the aliases in the table. An announcement
of a client that has not logged in names the sentinel, and a client that is renamed joins under its
new alias without leaving under the old one; every other event keeps the log and the table
together.
-/

namespace OpenSimp

open Bytes System ServerNetwork Announcement

variable {R R' : Room} {L : Library} {w : World} {i : ℕ} {r : Row} {req : Request}
  {log : List (Announcement Bytes)} {a b : Bytes}

/-- The announcements of some steps. -/
def announcedBy (steps : List (Step Config Event Obs)) : List (Announcement Bytes) :=
  steps.flatMap fun st => announcements st.obs.acts

namespace Config

variable (c : Config)

/-- The aliases of the clients that have one. -/
def names : Set Bytes := {a | a ∈ c.server.clientidArray ∧ a ≠ sentinel}

/-- The log alternates for every alias, never names the sentinel, and adds up to the aliases in the
table. -/
structure Mirrors (log : List (Announcement Bytes)) : Prop where
  alternates : ∀ a, Alternates log a
  ne_sentinel : ∀ x ∈ log, x.who ≠ sentinel
  replay_eq : replay log = c.names

end Config

/-- The event renames a client, or disconnects one that has not logged in. -/
def Event.Misannounces (L : Library) (c : Config) : Event → Prop
  | .accept _ _ => False
  | .receive i w => ∃ r req, c.row? i = some r ∧ c.request w r L = .ok req ∧
    ((∃ a, req = .rename a ∧ a ∉ c.server.clientidArray ∧ ValidAlias a) ∨
      r.status = .undone ∧ c.Refuses req)

/-! ### The aliases of a room -/

/-- No other row has the alias of row `i`. -/
lemma Room.Named.mem_eraseIdx_clientids (h : R.Named) (hr : R.rows[i]? = some r)
    (hb : b ≠ sentinel) :
    b ∈ R.clientids.eraseIdx i ↔ b ∈ R.clientids ∧ b ≠ r.clientid := by
  have hi : R.clientids[i]? = some r.clientid := by simp [Room.clientids, hr]
  rw [List.mem_eraseIdx_iff_getElem?, List.mem_iff_getElem?]
  constructor
  · rintro ⟨j, hji, hj⟩
    refine ⟨⟨j, hj⟩, ?_⟩
    rintro rfl
    obtain ⟨r', hr', hid⟩ := List.getElem?_map.symm.trans hj |> Option.map_eq_some_iff.mp
    have heq := h.unique r' (List.mem_of_getElem? hr') r (List.mem_of_getElem? hr) hid (hid ▸ hb)
    exact hji (List.index_eq_of_map_nodup R.nodup_sock hr' hr (heq ▸ rfl))
  · rintro ⟨⟨j, hj⟩, hne⟩
    refine ⟨j, ?_, hj⟩
    rintro rfl
    exact hne (Option.some.inj (hj.symm.trans hi))

lemma Room.mem_names : b ∈ R.config.names ↔ b ∈ R.clientids ∧ b ≠ sentinel := Iff.rfl

lemma Room.Named.names_joined (h : R.Named) (hr : R.rows[i]? = some r) (ha : a ≠ sentinel)
    (hids : R'.clientids = R.clientids.set i a) :
    R'.config.names = insert a (R.config.names \ {r.clientid}) := by
  have hi : i < R.clientids.length := by
    simpa [Room.clientids] using (List.getElem?_eq_some_iff.mp hr).1
  ext b
  simp only [Room.mem_names, hids, List.mem_set_iff_eraseIdx hi, Set.mem_insert_iff, Set.mem_sdiff,
    Set.mem_singleton_iff]
  by_cases hb : b = sentinel
  · simp [hb, ha.symm]
  · simp [hb, h.mem_eraseIdx_clientids hr hb]

lemma Room.Named.names_left (h : R.Named) (hr : R.rows[i]? = some r)
    (hids : R'.clientids = R.clientids.eraseIdx i) :
    R'.config.names = R.config.names \ {r.clientid} := by
  ext b
  simp only [Room.mem_names, hids, Set.mem_sdiff, Set.mem_singleton_iff]
  by_cases hb : b = sentinel
  · simp [hb]
  · simp [hb, h.mem_eraseIdx_clientids hr hb]

/-! ### One more announcement -/

namespace Config.Mirrors

lemma nil (userdata : Bytes) : (Config.init userdata).Mirrors [] where
  alternates := fun _ => trivial
  ne_sentinel := by simp
  replay_eq := by simp [Config.names, Config.init]

/-- What one more announcement asks for. -/
lemma append_singleton_iff {c c' : Config} {x : Announcement Bytes} (h : c.Mirrors log) :
    c'.Mirrors (log ++ [x]) ↔
      x.Fits c.names ∧ x.who ≠ sentinel ∧ c'.names = x.apply c.names := by
  constructor
  · intro h'
    have hfits := ((alternates_append_singleton log x).mp h'.alternates).2
    have hreplay := h'.replay_eq
    rw [replay_append_singleton, h.replay_eq] at hreplay
    exact ⟨h.replay_eq ▸ hfits, h'.ne_sentinel x (by simp), hreplay.symm⟩
  · rintro ⟨hfits, hs, hnames⟩
    constructor
    · exact (alternates_append_singleton log x).mpr ⟨h.alternates, h.replay_eq ▸ hfits⟩
    · intro y hy
      rcases List.mem_append.mp hy with hy | hy
      · exact h.ne_sentinel y hy
      · rwa [List.mem_singleton.mp hy]
    · rw [replay_append_singleton, h.replay_eq, hnames]

lemma append_nil_iff {c c' : Config} (h : c.Mirrors log) (hnames : c'.names = c.names) :
    c'.Mirrors (log ++ []) := by
  rw [List.append_nil]
  exact ⟨h.alternates, h.ne_sentinel, h.replay_eq.trans hnames.symm⟩

end Config.Mirrors

/-! ### Steps and runs -/

lemma Room.misannounces_iff (hr : R.rows[i]? = some r) (hreq : R.request L w r = .ok req) :
    (Event.receive i w).Misannounces L R.config ↔
      (∃ a, req = .rename a ∧ R.Admits a) ∨ r.status = .undone ∧ R.config.Refuses req :=
  Room.exists_config_request hr hreq

/-- What is misannounced: a client that has an alias joins, or one that has none leaves. -/
lemma Room.misannounces_iff_announcement (hN : R.Named) (hr : R.rows[i]? = some r)
    (hreq : R.request L w r = .ok req) :
    (Event.receive i w).Misannounces L R.config ↔
      (∃ a, R.config.announcement L r req = some (.joined a) ∧ r.clientid ≠ sentinel) ∨
        R.config.announcement L r req = some (.left r.clientid) ∧ r.clientid = sentinel := by
  have hfits := Room.request_fits hreq
  have hundone := (hN.named r (List.mem_of_getElem? hr)).undone_iff
  rw [Room.misannounces_iff hr hreq]
  constructor
  · rintro (⟨a, rfl, ha⟩ | ⟨hstatus, hrefuses⟩)
    · exact .inl ⟨a, Room.announcement_eq_joined.mpr ⟨rfl, ha⟩, hundone.not.mp hfits.1⟩
    · exact .inr ⟨Room.announcement_of_refuses hrefuses, hundone.mp hstatus⟩
  · rintro (⟨a, hx, hid⟩ | ⟨hx, hid⟩)
    · obtain ⟨halias, ha⟩ := Room.announcement_eq_joined.mp hx
      cases req with
      | rename b =>
        cases halias
        exact .inl ⟨a, rfl, ha⟩
      | login b | register b p => exact absurd (hundone.mp hfits) hid
      | leave | spam | garbledLogin | wrongPassword | illegal | idle | unreadable | console
      | command text | key n | chat text => cases halias
    · have hstatus := hundone.mpr hid
      exact .inr ⟨hstatus, Room.refuses_of_announcement (hstatus ▸ hfits) hx⟩

/-- A joining client is announced truly exactly if it had no alias: an old one would stay in the
log and be no longer in the table. -/
lemma Room.mirrors_joined_iff (hN : R.Named) (hm : R.config.Mirrors log)
    (hr : R.rows[i]? = some r) (ha : R.Admits a) (hids : R'.clientids = R.clientids.set i a) :
    R'.config.Mirrors (log ++ [.joined a]) ↔ r.clientid = sentinel := by
  have hrow := List.mem_of_getElem? hr
  have hs : a ≠ sentinel := fun hs => not_validAlias_sentinel (hs ▸ ha.2)
  have hne : r.clientid ≠ a := fun heq => ha.1 (heq ▸ List.mem_map_of_mem hrow)
  rw [hm.append_singleton_iff, hN.names_joined hr hs hids, Announcement.apply]
  constructor
  · rintro ⟨-, -, heq⟩
    by_contra hid
    have hold : r.clientid ∈ insert a R.config.names := .inr ⟨List.mem_map_of_mem hrow, hid⟩
    rw [← heq] at hold
    rcases hold with heq | ⟨-, hne'⟩
    · exact hne heq
    · exact hne' rfl
  · intro hid
    have hsame : R.config.names \ {r.clientid} = R.config.names := by
      rw [hid]
      exact Set.sdiff_singleton_eq_self fun hmem => hmem.2 rfl
    exact ⟨fun hmem => ha.1 hmem.1, hs, by rw [hsame]⟩

/-- A leaving client is announced truly exactly if it had an alias. -/
lemma Room.mirrors_left_iff (hN : R.Named) (hm : R.config.Mirrors log)
    (hr : R.rows[i]? = some r) (hids : R'.clientids = R.clientids.eraseIdx i) :
    R'.config.Mirrors (log ++ [.left r.clientid]) ↔ r.clientid ≠ sentinel := by
  rw [hm.append_singleton_iff, hN.names_left hr hids]
  constructor
  · exact fun h => h.2.1
  · intro hid
    exact ⟨⟨List.mem_map_of_mem (List.mem_of_getElem? hr), hid⟩, hid, rfl⟩

/-- A step keeps the announcements and the table together exactly if it misannounces nobody. -/
lemma Room.Step.mirrors_iff {e : Event} {o : Obs} (hN : R.Named) (hm : R.config.Mirrors log)
    (h : Room.Step L R e o R') :
    R'.config.Mirrors (log ++ announcements o.acts) ↔ ¬ e.Misannounces L R.config := by
  cases h with
  | accepted hp hstatus =>
    refine iff_of_true (hm.append_nil_iff ?_) not_false
    ext b
    simp only [Room.mem_names, Room.clientids, Room.connect, List.map_append, List.mem_append,
      List.map_singleton, List.mem_singleton, Row.fresh]
    tauto
  | declined hp hstatus => exact iff_of_true (hm.append_nil_iff rfl) not_false
  | @served i w r q hr hserve =>
    obtain ⟨req, hreq, -⟩ := Room.serve_outcome hserve
    have hann := (Room.serve_announced hr hreq hserve).clientids
    rw [Room.misannounces_iff_announcement hN hr hreq, Room.announcements_serve hN hr hreq hserve]
    cases hx : R.config.announcement L r req with
    | none =>
      rw [hx] at hann
      refine iff_of_true (hm.append_nil_iff ?_) (by simp)
      ext b
      rw [Room.mem_names, Room.mem_names, hann, announced]
    | some x =>
      rw [hx] at hann
      rw [Option.toList_some]
      cases x with
      | joined a =>
        rw [Room.mirrors_joined_iff hN hm hr (Room.announcement_eq_joined.mp hx).2 hann]
        simp
      | left a =>
        obtain rfl := Room.announcement_eq_left hx
        rw [Room.mirrors_left_iff hN hm hr hann]
        simp

/-- In every run the announcements and the table agree after every event exactly when no event
renames a client or disconnects one that has not logged in. -/
theorem mirrored_iff_not_misannounces (L : Library) (userdata : Bytes)
    {steps : List (Step Config Event Obs)} {c : Config}
    (h : (server L).Run (Config.init userdata) steps c) :
    (∀ pre st post, steps = pre ++ st :: post →
        st.post.Mirrors (announcedBy (pre ++ [st]))) ↔
      ∀ st ∈ steps, ¬ st.event.Misannounces L st.pre := by
  refine h.forall_iff (P := fun steps c => c.Mirrors (announcedBy steps))
    (Q := fun st => ¬ st.event.Misannounces L st.pre) (.nil userdata) ?_
  intro steps c e o c' hrun hm hstep
  obtain ⟨R, hreach, rfl⟩ := reachable_lift hrun.reachable
  obtain ⟨R', rfl, hserved⟩ := room_embeds L R e o c' hstep
  have happend : announcedBy (steps ++ [⟨R.config, e, o, R'.config⟩]) =
      announcedBy steps ++ announcements o.acts := by
    simp [announcedBy]
  rw [happend]
  exact Room.Step.mirrors_iff (Room.named_of_reachable hreach) hm hserved

/-- Alice is in the room when Bob logs in, exchanges keys and leaves. -/
def Toy.bobLeaves : List Event :=
  [joins 1, polls 0 (logsIn (ascii "alice") (ascii "pw")) 5, joins 2,
    polls 1 (logsIn (ascii "bobby") (ascii "pw")) 10, polls 1 modulus 15, leaves 1]

theorem mirrored_iff_not_misannounces_toy :
    ∃ steps c, play toy (Config.init []) Toy.bobLeaves = some (steps, c) ∧
      ((∀ pre st post, steps = pre ++ st :: post → st.post.Mirrors (announcedBy (pre ++ [st]))) ↔
        ∀ st ∈ steps, ¬ st.event.Misannounces toy st.pre) := by
  have hsome : (play toy (Config.init []) Toy.bobLeaves).isSome = true := by decide +kernel
  obtain ⟨⟨steps, c⟩, hplay⟩ := Option.isSome_iff_exists.mp hsome
  exact ⟨steps, c, hplay, mirrored_iff_not_misannounces toy [] (run_of_play hplay)⟩

/-- Alice is renamed. -/
def Toy.renamesAlice : List Event :=
  [joins 1, polls 0 (logsIn (ascii "alice") (ascii "pw")) 5, polls 0 modulus 10,
    polls 0 (seals (ascii "3 bobby")) 100]

/-- Nobody is told that Alice is gone. -/
theorem not_mirrored_toy :
    ¬ ∀ steps c, (server toy).Run (Config.init []) steps c →
      ∀ pre st post, steps = pre ++ st :: post → st.post.Mirrors (announcedBy (pre ++ [st])) := by
  have hsome : (play toy (Config.init []) Toy.renamesAlice).map (fun x =>
      (announcedBy x.1, x.1.getLast?.map fun st => st.post.server.clientidArray)) =
      some ([.joined (ascii "alice"), .joined (ascii "bobby")], some [ascii "bobby"]) := by
    decide +kernel
  obtain ⟨⟨steps, c⟩, hplay, heq⟩ := Option.map_eq_some_iff.mp hsome
  obtain ⟨hlog, hlast⟩ := Prod.mk.inj heq
  obtain ⟨st, hst, hids⟩ := Option.map_eq_some_iff.mp hlast
  have hsteps : steps = steps.dropLast ++ [st] := by
    rw [List.dropLast_append_getLast? st hst]
  intro hall
  have hm := hall steps c (run_of_play hplay) steps.dropLast st [] hsteps
  rw [← hsteps, hlog] at hm
  have halice : ascii "alice" ∈ replay [.joined (ascii "alice"), .joined (ascii "bobby")] := by
    simp [replay, Announcement.apply]
  rw [hm.replay_eq] at halice
  have hmem : ascii "alice" ∈ st.post.server.clientidArray := halice.1
  rw [hids] at hmem
  exact absurd hmem (by decide)

end OpenSimp
