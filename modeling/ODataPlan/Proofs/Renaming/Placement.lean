import ODataPlan.Proofs.Execution
import ODataPlan.Proofs.Registration
import ODataPlan.Proofs.Renaming.Rendering

/-! Two lists of definitions, the second with all definitions of the first in any order and among
others. Main statement: queries on the models of the first list come to the same over both
registries. -/
namespace ODataPlan

namespace Renaming

section Resolve

variable (ρ : Renaming) (d : Definition) (id : ModelId)

theorem fieldId_id (name : String) : d.fieldId (ρ.id id) name = ρ.field <$> d.fieldId id name := by
  unfold Definition.fieldId
  cases d.fields.findIdx? (·.name == name) <;> rfl

theorem resolveEndpoint_id (e : Endpoint String) :
    d.resolveEndpoint (ρ.id id) e = ρ.endpoint <$> d.resolveEndpoint id e := by
  have names : ∀ xs : List String, xs.mapM (d.fieldId (ρ.id id)) =
      List.map ρ.field <$> xs.mapM (d.fieldId id) := mapM_congr (fieldId_id ρ d id)
  unfold Definition.resolveEndpoint
  cases e.defaultSelect with
  | implicit => simp only [names, pure_bind, bind_map_left, map_bind, map_pure]; rfl
  | declared => simp only [names, pure_bind, bind_map_left, map_bind, map_pure]; rfl
  | fields xs => simp only [names, bind_map_left, map_bind, map_pure]; rfl

theorem resolveEndpoint?_id (e : Option (Endpoint String)) :
    d.resolveEndpoint? (ρ.id id) e = Option.map ρ.endpoint <$> d.resolveEndpoint? id e := by
  cases e with
  | none => rfl
  | some e =>
    rw [Definition.resolveEndpoint?, Definition.resolveEndpoint?, resolveEndpoint_id]
    cases d.resolveEndpoint id e <;> rfl

variable {ρ d id} {ms ms' : List Definition}
  (hρ : ∀ target t, Definition.idOf? ms target = some t →
    Definition.idOf? ms' target = some (ρ.id t))

include hρ

theorem resolveField_of_ok {f : FieldDecl String} {i : Nat} {x : Field}
    (h : Definition.resolveField ms d id f i = .ok x) :
    Definition.resolveField ms' d (ρ.id id) f i = .ok (ρ.declared x) := by
  unfold Definition.resolveField at h ⊢
  cases ht : f.type with
  | scalar =>
    simp only [ht] at h ⊢
    cases h
    rfl
  | expandable e =>
    simp only [ht] at h ⊢
    cases hid : Definition.idOf? ms e.target with
    | none => simp only [hid] at h; cases h
    | some t =>
      rw [hρ e.target t hid]
      simp only [hid] at h ⊢
      cases h
      rfl

/-- A definition resolved at another place among other definitions is the same model renamed. -/
theorem resolve_of_ok {i j : Nat} {m : Model} (hij : ρ.id ⟨i⟩ = ⟨j⟩)
    (h : d.resolve ms i = .ok m) : d.resolve ms' j = .ok (ρ.model m) := by
  obtain ⟨fields, key, rest, graph, hf, hk, hr, hg, rfl⟩ := Definition.resolve_eq_ok_iff.mp h
  refine Definition.resolve_eq_ok_iff.mpr ⟨fields.map ρ.declared, key, rest.map ρ.endpoint,
    graph.map ρ.endpoint, ?_, hk, ?_, ?_, ?_⟩
  · rw [← hij, Except.mapM_eq_ok_iff, List.forall₂_map_right_iff]
    exact (Except.mapM_eq_ok_iff.mp hf).imp fun _ _ hx => resolveField_of_ok hρ hx
  · rw [← hij, resolveEndpoint?_id, hr]
    rfl
  · rw [← hij, resolveEndpoint?_id, hg]
    rfl
  · rw [← hij]
    rfl

end Resolve

section Place

variable {ms ms' : List Definition}

/-- The place in the second list of the definition at a place of the first one; what is no place of
the first list goes behind the second one. -/
def place (ms ms' : List Definition) (i : Nat) : Nat :=
  match ms[i]? with
  | some d => ms'.idxOf d
  | none => ms'.length + i

theorem getElem?_place (hsub : ms ⊆ ms') {i : Nat} {d : Definition} (hd : ms[i]? = some d) :
    ms'[place ms ms' i]? = some d := by
  have hmem : d ∈ ms' := hsub (List.mem_of_getElem? hd)
  rw [place, hd]
  exact List.getElem?_idxOf hmem

theorem place_injective (hsub : ms ⊆ ms') (hnodup : ms.Nodup) :
    Function.Injective (place ms ms') := by
  -- a definition goes to a place within the second list, any other number to one behind it
  have behind : ∀ {i}, ms[i]? = none → place ms ms' i = ms'.length + i := by
    intro i hi
    rw [place, hi]
  intro i j heq
  cases hi : ms[i]? with
  | none =>
    cases hj : ms[j]? with
    | none =>
      rw [behind hi, behind hj] at heq
      omega
    | some d =>
      obtain ⟨hlt, _⟩ := List.getElem?_eq_some_iff.mp (getElem?_place hsub hj)
      rw [behind hi] at heq
      omega
  | some d =>
    have hpi := getElem?_place hsub hi
    obtain ⟨hlt, _⟩ := List.getElem?_eq_some_iff.mp hpi
    cases hj : ms[j]? with
    | none =>
      rw [behind hj] at heq
      omega
    | some e =>
      rw [heq, getElem?_place hsub hj] at hpi
      obtain ⟨hilt, _⟩ := List.getElem?_eq_some_iff.mp hi
      exact (List.getElem?_inj hilt hnodup).mp (hi.trans (hpi ▸ hj).symm)

/-- The renaming that follows each definition to its place in the other list. -/
def byPlace (hsub : ms ⊆ ms') (hnodup : ms.Nodup) : Renaming where
  id m := ⟨place ms ms' m.index⟩
  injective := by
    rintro ⟨i⟩ ⟨j⟩ heq
    exact congrArg ModelId.mk (place_injective hsub hnodup (ModelId.mk.inj heq))

variable {s s' : Schema}

theorem embeds_byPlace (h : s.Registers ms) (h' : s'.Registers ms') (hsub : ms ⊆ ms')
    (hnodup : ms.Nodup) : (byPlace hsub hnodup).Embeds s s' := by
  -- a target found in the first list has its name from a definition that is in the second one too
  have targets : ∀ target t, Definition.idOf? ms target = some t →
      Definition.idOf? ms' target = some ((byPlace hsub hnodup).id t) := by
    rintro target ⟨i⟩ ht
    obtain ⟨d, hd, hn⟩ := (Definition.idOf?_eq_some_iff h.distinct).mp ht
    exact (Definition.idOf?_eq_some_iff h'.distinct).mpr ⟨d, getElem?_place hsub hd, hn⟩
  rintro ⟨i⟩
  change s'.model? ⟨place ms ms' i⟩ = _
  cases hd : ms[i]? with
  | none =>
    have hi : ms.length ≤ i := List.getElem?_eq_none_iff.mp hd
    rw [h.model?_eq_none hi, place, hd, h'.model?_eq_none (Nat.le_add_right _ _)]
    rfl
  | some d =>
    obtain ⟨m, _, hr, hm⟩ := h.model?_of_getElem? hd
    obtain ⟨m', _, hr', hm'⟩ := h'.model?_of_getElem? (getElem?_place hsub hd)
    have same := hr'.symm.trans (resolve_of_ok targets rfl hr)
    rw [hm, hm', Except.ok.inj same]
    rfl

theorem modelNamed?_byPlace (h : s.Registers ms) (h' : s'.Registers ms') (hsub : ms ⊆ ms')
    (hnodup : ms.Nodup) {name : String} (hname : ∃ d ∈ ms, d.name = Name.ofString name) :
    s'.modelNamed? name = (s.modelNamed? name).map (byPlace hsub hnodup).model := by
  obtain ⟨d, hmem, hn⟩ := hname
  obtain ⟨i, hd⟩ := List.mem_iff_getElem?.mp hmem
  rw [h.modelNamed?_of_getElem? hd hn, h'.modelNamed?_of_getElem? (getElem?_place hsub hd) hn]
  exact embeds_byPlace h h' hsub hnodup ⟨i⟩

end Place

end Renaming

/-- Two notes say the same, each in the ids of its own registry. -/
structure Merge.Matches (s s' : Schema) (m m' : Merge) : Prop where
  request : m.request = m'.request
  fieldName : m.fieldName = m'.fieldName
  target : ∃ n n', s.model? m.model = some n ∧ s'.model? m'.model = some n' ∧ n.name = n'.name

/-- Two batches have the same requests, and notes that say the same. -/
structure Batch.Matches (s s' : Schema) (b b' : Batch) : Prop where
  requests : b.requests = b'.requests
  merges : List.Forall₂ (Merge.Matches s s') b.merges b'.merges

/-- What a follow-up loads belongs to a registered model. -/
theorem Batch.Renders.target_of_mem_merges {q : Query} {s : Schema} {r : Resolved} {p : Plan}
    {b : Batch} (hs : s.Sound) (h : q.PlansTo s r p) (hb : b.Renders p s) {m : Merge}
    (hm : m ∈ b.merges) : ∃ n, s.model? m.model = some n := by
  obtain ⟨a, ha, rfl⟩ := List.mem_map.mp hm
  obtain ⟨f, hf, hr⟩ := Except.exists_of_mapM_eq_ok (Except.mapM_eq_ok_iff.mpr hb.followUps) a ha
  obtain ⟨x, e, hx, _, he, _, hmodel, _⟩ := h.followUp_operation hs (List.fst_mem_of_mem_zipIdx hf)
  obtain ⟨_, _, _, hmerge⟩ := FollowUp.request_eq_ok hr
  rw [hmerge, hmodel]
  exact hs.target_registered x (hx.has x List.mem_cons_self) e he

namespace Renaming.Embeds

variable {ρ : Renaming} {s s' : Schema}

theorem matches_batch (h : ρ.Embeds s s') {b : Batch}
    (targets : ∀ m ∈ b.merges, ∃ n, s.model? m.model = some n) :
    b.Matches s s' (ρ.batch b) := by
  refine ⟨(requests_batch ρ b).symm, ?_⟩
  rw [merges_batch, List.forall₂_map_right_iff, List.forall₂_same]
  intro m hm
  obtain ⟨n, hn⟩ := targets m hm
  refine ⟨rfl, rfl, n, ρ.model n, hn, ?_, rfl⟩
  rw [merge, h, hn]
  rfl

end Renaming.Embeds

namespace Sample

/-- The sample definitions in another order, with one more among them. -/
def widened : Builder where
  definitions := (Definition.named "Drive").withKey (.scalar "Id") :: builder.definitions.reverse
  graphFirst := false

def widenedDb : Db where
  schema := (widened.schema.toOption).getD ⟨[]⟩
  preferred := widened.preferred
  connection := db.connection

theorem build_widened : widened.build db.connection = .ok widenedDb :=
  Builder.build_of_isOk (by decide +kernel) db.connection

end Sample

namespace Db

theorem exists_failure_of_prepare {db : Db} (hs : db.schema.Sound) {q : Query}
    {e : Stop} (h : db.prepare q = .error e) : ∃ f : Failure, e = .failed f := by
  unfold prepare at h
  cases hp : db.plan q with
  | error e' =>
    obtain ⟨k, rfl, _⟩ := q.proper_plan hs db.preferred e' hp
    rw [hp] at h
    exact ⟨.ofKind k, (Except.error.inj h).symm⟩
  | ok p =>
    obtain ⟨r, hplans⟩ := Query.plansTo_of_plan hs hp
    obtain ⟨x, hx⟩ := hplans.exists_batch hs
    rw [hp, Except.ok_bind, hx] at h
    cases h

/-- What a query on a registered model comes to depends on the definitions alone, not on the order
in which they are registered or on what is registered besides. -/
theorem prepare_matches_of_subset {b b' : Builder} {c c' : Connection} {db db' : Db}
    (hb : b.build c = .ok db) (hb' : b'.build c' = .ok db') (hsub : b.definitions ⊆ b'.definitions)
    (hfirst : b.graphFirst = b'.graphFirst) {q : Query}
    (hq : ∃ d ∈ b.definitions, d.name = Name.ofString q.model) :
    (∃ e : Failure, db.prepare q = .error (.failed e) ∧ db'.prepare q = .error (.failed e)) ∨
      ∃ x x', db.prepare q = .ok x ∧ db'.prepare q = .ok x' ∧
        x.Matches db.schema db'.schema x' := by
  obtain ⟨hr, hp⟩ := Builder.registers_of_build hb
  obtain ⟨hr', hp'⟩ := Builder.registers_of_build hb'
  have hs := Builder.sound_of_build hb
  have hnodup : b.definitions.Nodup := hr.distinct.of_map
  let ρ := Renaming.byPlace hsub hnodup
  have hembeds : ρ.Embeds db.schema db'.schema := Renaming.embeds_byPlace hr hr' hsub hnodup
  have hnamed := Renaming.modelNamed?_byPlace hr hr' hsub hnodup hq
  have hpreferred : db'.preferred = db.preferred := by
    rw [hp, hp', Builder.preferred, Builder.preferred, hfirst]
  have hplan : db'.plan q = ρ.plan <$> db.plan q := by
    rw [plan, hpreferred, hembeds.query hnamed, plan]
  have hprepare : db'.prepare q = ρ.batch <$> db.prepare q := by
    unfold prepare
    simp only [hplan, bind_map_left, hembeds.batch, map_bind]
  cases ho : db.prepare q with
  | error e =>
    obtain ⟨f, rfl⟩ := exists_failure_of_prepare hs ho
    rw [ho] at hprepare
    exact .inl ⟨f, rfl, hprepare⟩
  | ok x =>
    obtain ⟨p, r, _, hplans, hrenders⟩ := prepare_eq_ok hs ho
    rw [ho] at hprepare
    exact .inr ⟨x, ρ.batch x, rfl, hprepare,
      hembeds.matches_batch fun m hm => hrenders.target_of_mem_merges hs hplans hm⟩

/-- The sample query has the same requests and the same notes in the wider registry, where the ids
are others. -/
theorem prepare_matches_of_subset_sample : ∃ x x', Sample.db.prepare Sample.query = .ok x ∧
    Sample.widenedDb.prepare Sample.query = .ok x' ∧ x.merges ≠ x'.merges ∧
      x.Matches Sample.db.schema Sample.widenedDb.schema x' := by
  have hsub : Sample.builder.definitions ⊆ Sample.widened.definitions := fun d hd =>
    List.mem_cons_of_mem _ (List.mem_reverse.mpr hd)
  have hq : ∃ d ∈ Sample.builder.definitions, d.name = Name.ofString Sample.query.model :=
    ⟨_, List.mem_cons_self, rfl⟩
  have other : (Sample.db.prepare Sample.query).toOption.map Batch.merges ≠
      (Sample.widenedDb.prepare Sample.query).toOption.map Batch.merges := by decide +kernel
  have fine : (Sample.db.prepare Sample.query).isOk = true := by decide +kernel
  rcases prepare_matches_of_subset Sample.build_eq Sample.build_widened hsub rfl hq with
    ⟨e, he, _⟩ | ⟨x, x', hx, hx', hmatches⟩
  · rw [he] at fine
    cases fine
  · rw [hx, hx'] at other
    exact ⟨x, x', hx, hx', fun h => other (congrArg some h), hmatches⟩

end Db

end ODataPlan
