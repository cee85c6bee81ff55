import ODataPlan.Batch
import ODataPlan.Proofs.Renaming.Planning

/-! Rendering over a registry that embeds another one. No id shows in a request: the requests are
the very same, and only the notes on where their answers belong are renamed. -/
namespace ODataPlan

namespace Renaming

variable (ρ : Renaming)

def merge (m : Merge) : Merge := ⟨m.request, ρ.field m.field, m.fieldName, ρ.id m.model⟩

def batch (b : Batch) : Batch := ⟨b.primary, b.followUps.map (Prod.map (fun r => r) ρ.merge)⟩

@[simp] theorem requests_batch (b : Batch) : (ρ.batch b).requests = b.requests := by
  simp [Batch.requests, batch, Function.comp_def]

@[simp] theorem merges_batch (b : Batch) : (ρ.batch b).merges = b.merges.map ρ.merge := by
  simp [Batch.merges, batch, Function.comp_def]

@[simp] theorem name_clause (c : Clause) : (ρ.clause c).name = c.name := by cases c <;> rfl

theorem mapM_map_eq {ε α α' β : Type} {f : α → Except ε β} {f' : α' → Except ε β} {g : α → α'}
    (each : ∀ x, f' (g x) = f x) (xs : List α) : (xs.map g).mapM f' = xs.mapM f := by
  simp only [List.mapM_map, each, Function.comp_def]

namespace Embeds

variable {ρ} {s s' : Schema} (h : ρ.Embeds s s')

include h

theorem wireName (d : Dialect) (f : FieldId) : s'.wireName d (ρ.field f) = s.wireName d f := by
  unfold Schema.wireName
  rw [h.member]
  cases s.member f with
  | error e => rfl
  | ok x => rfl

theorem pathText (d : Dialect) (p : FieldPath) : s'.pathText d (ρ.path p) = s.pathText d p := by
  unfold Schema.pathText
  rw [path, mapM_map_eq (h.wireName d)]
  simp only [List.isEmpty_map]

theorem checkSteps (d : Dialect) (p : FieldPath) :
    s'.checkSteps d (ρ.path p) = s.checkSteps d p := by
  induction p with
  | nil => rfl
  | cons f p ih =>
    change s'.checkSteps d (ρ.field f :: ρ.path p) = _
    -- only whether the step is a collection counts, which the target has no part in
    rw [Schema.checkSteps, Schema.checkSteps, ih]
    simp only [h.member, Outcome.liftM_eq_ofLookup, Outcome.ofLookup_map, bind_map_left]
    refine congrArg _ (funext fun x => ?_)
    simp only [field_member, type_declared, expand?_type]
    cases x.field.type.expand? with
    | none => rfl
    | some e => rfl

theorem checkExpand (d : Dialect) (p : FieldPath) :
    s'.checkExpand d (ρ.path p) = s.checkExpand d p := by
  unfold Schema.checkExpand
  rw [h.checkSteps, path, List.length_map]

theorem predicateText (d : Dialect) (p : Predicate) :
    s'.predicateText d (ρ.predicate p) = s.predicateText d p := by
  unfold Schema.predicateText
  rw [predicate, h.wireName]

theorem sortText (d : Dialect) (k : SortKey) :
    s'.sortText d (ρ.sortKey k) = s.sortText d k := by
  unfold Schema.sortText
  rw [sortKey, h.wireName]

theorem clauseText (d : Dialect) (c : Clause) :
    s'.clauseText d (ρ.clause c) = s.clauseText d c := by
  cases c with
  | select ps =>
    rw [clause, Schema.clauseText, Schema.clauseText, mapM_map_eq (h.pathText d)]
    simp only [List.isEmpty_map]
  | expand ps =>
    rw [clause, Schema.clauseText, Schema.clauseText, mapM_map_eq (h.pathText d)]
    simp only [List.isEmpty_map, List.forM_eq_forM, List.forM_map, h.checkExpand]
  | filter ps =>
    rw [clause, Schema.clauseText, Schema.clauseText, mapM_map_eq (h.predicateText d)]
    simp only [List.isEmpty_map]
  | orderBy ks =>
    rw [clause, Schema.clauseText, Schema.clauseText, mapM_map_eq (h.sortText d)]
    simp only [List.isEmpty_map]
  | top n => rfl
  | skip n => rfl

theorem params (d : Dialect) (seen : List String) (cs : List Clause) :
    s'.params d seen (cs.map ρ.clause) = s.params d seen cs := by
  induction cs generalizing seen with
  | nil => rfl
  | cons c cs ih =>
    rw [List.map_cons, Schema.params, Schema.params, h.clauseText, name_clause]
    simp only [ih]

theorem render (d : Dialect) (op : Operation) : s'.render d (ρ.operation op) = s.render d op := by
  unfold Schema.render
  rw [operation, h.params]

theorem request (op : Operation) (d : Dialect) (id : Nat) :
    (ρ.operation op).request s' d id = op.request s d id := by
  unfold Operation.request
  rw [h.render]
  rfl

theorem followUpRequest (f : FollowUp) (d : Dialect) (id : Nat) :
    (ρ.followUp f).request s' d id =
      Prod.map (fun r => r) ρ.merge <$> f.request s d id := by
  unfold FollowUp.request
  simp only [Renaming.followUp, h.request, h.member, Outcome.liftM_eq_ofLookup,
    Outcome.ofLookup_map, bind_map_left, map_bind, map_pure]
  rfl

/-- Rendering a plan gives the same requests under the new ids, or fails likewise. -/
theorem batch (p : Plan) : (ρ.plan p).batch s' = ρ.batch <$> p.batch s := by
  have followUps : ((p.followUps.map ρ.followUp).zipIdx 1).mapM
      (fun x => x.1.request s' p.dialect x.2) =
      List.map (Prod.map (fun r => r) ρ.merge) <$>
        (p.followUps.zipIdx 1).mapM fun x => x.1.request s p.dialect x.2 := by
    rw [List.zipIdx_map]
    exact mapM_map (fun x => h.followUpRequest x.1 p.dialect x.2) _
  unfold Plan.batch
  simp only [Renaming.plan, h.request, followUps, bind_map_left, map_bind, map_pure]
  rfl

end Embeds

end Renaming

end ODataPlan
