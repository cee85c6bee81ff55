import ODataPlan.Db
import ODataPlan.Proofs.Plan.Typing
import ODataPlan.Proofs.Url.Rules

/-! Rendering never refuses a plan. Main statement: over every registry that can be built, planning
and preparing a query succeed together and fail with the same error, and neither follows an id that
leads nowhere nor breaks a rule of rendering. -/
namespace ODataPlan

namespace Schema

variable {s : Schema} {d : Dialect}

/-- What is inline throughout can be expanded by the renderer. -/
theorem InlineFrom.expandable (hs : s.Sound) {ids : FieldPath} (h : s.InlineFrom d 1 ids) :
    s.Expandable d ids := by
  refine ⟨fun limit hlimit => ?_, fun f hf => ?_⟩
  · cases d with
    | rest => cases hlimit
    | graph =>
      cases hlimit
      exact h.length_le
  · obtain ⟨x, hx, rfl, e, he, hi⟩ := h.forall_one f hf
    refine ⟨x, e, hs.member_of_has hx, he, ?_⟩
    rintro rfl
    exact hi.1

end Schema

theorem Schema.Addresses.writable {s : Schema} {d : Dialect} {m : ModelId} {ids : FieldPath}
    (h : s.Addresses d m ids) : s.Writable d ids := by
  obtain ⟨⟨before, x, _, _, rfl⟩, served⟩ := h
  exact ⟨by simp, served⟩

namespace Projection

variable {s : Schema} {d : Dialect} {p : Projection}

theorem renderable_of_mem_clauses (hsel : ∀ ids ∈ p.select, s.Writable d ids)
    (hexp : ∀ ids ∈ p.expand, s.Writable d ids ∧ s.Expandable d ids) :
    ∀ c ∈ p.clauses, c.Renderable s d := by
  have hne : ∀ xs : List FieldPath, xs ≠ [] → xs.eraseDups ≠ [] :=
    fun _ => mt eraseDups_eq_nil_iff.mp
  intro c hc
  unfold clauses at hc
  rcases List.mem_append.mp hc with hc | hc
  · split at hc
    · cases hc
    · rename_i h
      cases List.mem_singleton.mp hc
      exact ⟨hne _ (by simpa using h), fun ids hids => hsel ids (List.mem_eraseDups.mp hids)⟩
  · split at hc
    · cases hc
    · rename_i h
      cases List.mem_singleton.mp hc
      exact ⟨hne _ (by simpa using h), fun ids hids => hexp ids (List.mem_eraseDups.mp hids)⟩

end Projection

namespace Query.PlansTo

variable {q : Query} {s : Schema} {r : Resolved} {p : Plan}

theorem renderable_of_mem_shapingClauses (hs : s.Sound) (h : q.PlansTo s r p) :
    ∀ c ∈ r.shapingClauses, c.Renderable s p.dialect := by
  obtain ⟨picks, hq⟩ := h.resolves
  have hfilters : ∀ f ∈ r.filters, s.serves p.dialect f.field = true := fun f hf =>
    h.serves _ ((hq.mem_named_iff hs _).mpr (.inr (.inl ⟨f, hf, rfl⟩)))
  have hsorts : ∀ k ∈ r.sorts, s.serves p.dialect k.field = true := fun k hk =>
    h.serves _ ((hq.mem_named_iff hs _).mpr (.inr (.inr ⟨k, hk, rfl⟩)))
  intro c hc
  simp only [Resolved.shapingClauses, List.mem_append, Option.mem_toList,
    Option.map_eq_some_iff] at hc
  rcases hc with ((hc | hc) | ⟨n, _, rfl⟩) | ⟨n, _, rfl⟩
  · split at hc
    · cases hc
    · rename_i hne
      cases List.mem_singleton.mp hc
      exact ⟨by simpa using hne, hfilters⟩
  · split at hc
    · cases hc
    · rename_i hne
      cases List.mem_singleton.mp hc
      exact ⟨by simpa using hne, hsorts⟩
  · trivial
  · trivial

theorem renderable_primary (hs : s.Sound) (h : q.PlansTo s r p) : p.primary.Renderable s p.dialect := by
  have hclauses : p.primary.clauses = (r.block s p.dialect).1.clauses ++ r.shapingClauses :=
    congrArg (·.primary.clauses) h.planned
  have hexp : ∀ ids ∈ (r.block s p.dialect).1.expand,
      s.Writable p.dialect ids ∧ s.Expandable p.dialect ids := by
    intro ids hids
    have hmem : ids ∈ p.primary.expanded := by
      rwa [congrArg Plan.primary h.planned, Resolved.expanded_primary, List.mem_eraseDups]
    obtain ⟨hne, hi⟩ := h.inlineFrom_of_expanded hs _ List.mem_cons_self ids hmem
    obtain ⟨x, path, named, _, rfl⟩ := (h.mem_expanded_primary_iff_names hs).mp hmem
    exact ⟨⟨hne, h.serves_of_mem_chain hs named⟩, hi.expandable hs⟩
  refine ⟨h.dialect_of_mem_operations hs _ List.mem_cons_self, ?_, ?_⟩
  · rw [hclauses, List.map_append]
    exact List.Nodup.sublist ((Projection.names_sublist _).append r.names_sublist) (by decide)
  · rw [hclauses]
    exact List.forall_mem_append.mpr ⟨Projection.renderable_of_mem_clauses
      (fun ids hids => (h.addresses_of_mem_block hs hids).writable) hexp,
      h.renderable_of_mem_shapingClauses hs⟩

theorem renderable_followUp (hs : s.Sound) (h : q.PlansTo s r p) {f : FollowUp}
    (hf : f ∈ p.followUps) : f.operation.Renderable s p.dialect := by
  obtain ⟨picks, hq⟩ := h.resolves
  have hop : f.operation ∈ p.operations := List.mem_cons_of_mem _ (List.mem_map_of_mem hf)
  obtain ⟨x, a, hx, rfl, _⟩ := h.requestable_of_mem_followUps hs hf
  have ha := (hq.target_of_expansion hs hx).1
  have hlevel : ∀ ids n, a.level? ids = some n → ∀ g ∈ ids, s.serves p.dialect g = true :=
    fun ids n hn g hg => h.serves_of_level hs hx hn g (List.mem_cons_of_mem _ hg)
  refine ⟨h.dialect_of_mem_operations hs _ hop, (Projection.names_sublist _).nodup (by decide), ?_⟩
  refine Projection.renderable_of_mem_clauses
    (fun ids hids => (ha.addresses_of_mem_requestBlock hs hlevel hids).writable) fun ids hids => ?_
  have hmem : ids ∈ (x.request s p.dialect a).operation.expanded := by
    rwa [Member.request, Operation.expanded, Projection.expanded_clauses, List.mem_eraseDups]
  obtain ⟨hne, hi⟩ := h.inlineFrom_of_expanded hs _ hop ids hmem
  obtain ⟨_, n, hn⟩ := (ha.mem_expand_requestBlock_iff hs).mp hids
  exact ⟨⟨hne, hlevel ids n hn⟩, hi.expandable hs⟩

theorem renderable_of_mem_operations (hs : s.Sound) (h : q.PlansTo s r p) :
    ∀ op ∈ p.operations, op.Renderable s p.dialect := by
  intro op hop
  rcases List.mem_cons.mp hop with rfl | hop
  · exact h.renderable_primary hs
  · obtain ⟨f, hf, rfl⟩ := List.mem_map.mp hop
    exact h.renderable_followUp hs hf

/-- A plan can always be rendered. -/
theorem exists_batch (hs : s.Sound) (h : q.PlansTo s r p) : ∃ b, p.batch s = .ok b := by
  have each : ∀ op ∈ p.operations, ∀ id, ∃ request, op.request s p.dialect id = .ok request := by
    intro op hop id
    obtain ⟨url, hurl⟩ := Schema.exists_render (h.renderable_of_mem_operations hs op hop)
    exact ⟨_, by rw [Operation.request, hurl]; rfl⟩
  obtain ⟨primary, hp⟩ := each _ List.mem_cons_self 0
  have hfollow : ∀ x ∈ p.followUps.zipIdx 1, ∃ y, x.1.request s p.dialect x.2 = .ok y := by
    rintro ⟨f, id⟩ hx
    have hf : f ∈ p.followUps := List.fst_mem_of_mem_zipIdx hx
    have hop : f.operation ∈ p.operations := List.mem_cons_of_mem _ (List.mem_map_of_mem hf)
    obtain ⟨request, hrequest⟩ := each f.operation hop id
    obtain ⟨picks, hq⟩ := h.resolves
    obtain ⟨x, a, hxa, rfl, _⟩ := h.requestable_of_mem_followUps hs hf
    have hmember := hs.member_of_has ((hq.mem_expansions_iff hs).mp hxa).1
    rw [FollowUp.request, hrequest, Except.ok_bind, Member.request, Member.id, hmember]
    exact ⟨_, rfl⟩
  obtain ⟨followUps, hf⟩ := Except.exists_mapM_eq_ok hfollow
  exact ⟨⟨primary, followUps⟩, by rw [Plan.batch, hp, Except.ok_bind, hf]; rfl⟩

end Query.PlansTo

/-- Planning fails only for a reason that lies in the query. -/
theorem Query.proper_plan {s : Schema} (hs : s.Sound) (q : Query) (preferred : Dialect) :
    (q.plan s preferred).Proper := by
  refine (proper_resolve hs q).bind fun r hr => ?_
  obtain ⟨picks, hq⟩ := resolvesTo_of_resolve hs hr
  cases hd : r.dialect s (q.preference.getD preferred) with
  | ok d =>
    obtain ⟨⟨path, hp⟩, _⟩ := Resolved.serves_of_dialect hd
    exact (hq.plan_decides hs hd hp).proper
  | error e =>
    intro e' he
    rw [Resolved.plan, hd] at he
    cases he
    exact Resolved.proper_dialect hs (hq.named_has hs) e hd

namespace Db

/-- Planning and preparing a query agree: neither follows an id that leads nowhere or breaks a rule
of rendering, both succeed or none does, and they fail with the same error. -/
theorem prepare_agrees_with_plan {b : Builder} {c : Connection} {db : Db} (hb : b.build c = .ok db)
    (q : Query) : (db.plan q).Proper ∧ (db.prepare q).Proper ∧
      ((∃ batch, db.prepare q = .ok batch) ↔ ∃ p, db.plan q = .ok p) ∧
      ∀ e, db.prepare q = .error e ↔ db.plan q = .error e := by
  have hs := Builder.sound_of_build hb
  have hplan : (db.plan q).Proper := q.proper_plan hs db.preferred
  cases hp : db.plan q with
  | ok p =>
    obtain ⟨r, h⟩ := Query.plansTo_of_plan hs hp
    obtain ⟨batch, hbatch⟩ := h.exists_batch hs
    have hprepare : db.prepare q = .ok batch := by rw [prepare, hp, Except.ok_bind, hbatch]
    rw [hprepare]
    exact ⟨Outcome.proper_ok p, Outcome.proper_ok batch, ⟨fun _ => ⟨p, rfl⟩, fun _ => ⟨batch, rfl⟩⟩,
      fun e => ⟨nofun, nofun⟩⟩
  | error e =>
    have hprepare : db.prepare q = .error e := by rw [prepare, hp, Except.error_bind]
    rw [hprepare]
    rw [hp] at hplan
    exact ⟨hplan, fun e' he => hplan e' (congrArg _ (Except.error.inj he)), ⟨nofun, nofun⟩,
      fun e' => by simp⟩

/-- The sample query can be prepared, since it can be planned. -/
theorem prepare_agrees_with_plan_sample :
    (Sample.db.prepare Sample.query).Proper ∧ ∃ b, Sample.db.prepare Sample.query = .ok b := by
  obtain ⟨_, hproper, hok, _⟩ := prepare_agrees_with_plan Sample.build_eq Sample.query
  exact ⟨hproper, hok.mpr (Except.exists_of_isOk (by decide +kernel))⟩

end Db

end ODataPlan
