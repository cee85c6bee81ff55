import ODataPlan.Proofs.Registry
import ODataPlan.Url.Read
import ODataPlan.Url.Render

/-! The urls of an operation. Main statement: what is read from the encoded url is the path and,
clause by clause, the name with the very value that stands behind it in the canonical url. -/
namespace ODataPlan

theorem Clause.not_mem_name (c : Clause) : '=' ∉ c.name.toList ∧ '&' ∉ c.name.toList := by
  cases c <;> simp [name]

namespace Url

/-- The canonical url: the path, and behind `?` the parameters with `&` between them. -/
theorem canonical_eq (u : Url) : u.canonical = u.path ++ if u.params = [] then "" else
    "?" ++ "&".intercalate (u.params.map fun p => p.1 ++ "=" ++ p.2) := by
  obtain ⟨path, params⟩ := u
  rw [canonical]
  cases params with
  | nil => rfl
  | cons p ps =>
    have hquery : query "?" (p :: ps) =
        "?" ++ "&".intercalate ((p :: ps).map fun p => p.1 ++ "=" ++ p.2) := by
      apply String.toList_injective
      have hparam :
          String.toList ∘ (fun p : String × String => p.1 ++ "=" ++ p.2) = paramChars := by
        funext p
        simp [paramChars]
      rw [toList_query, String.toList_append, String.toList_intercalate, List.map_map, hparam]
      rfl
    rw [if_neg (List.cons_ne_nil p ps), hquery]

end Url

namespace Schema

variable {s : Schema} {d : Dialect}

/-- The parameters of clauses: no name comes twice, and each has its clause's name and value. -/
theorem params_eq_ok_iff {seen : List String} {cs : List Clause} {ps : List (String × String)} :
    s.params d seen cs = .ok ps ↔
      (cs.map Clause.name).Nodup ∧ (∀ c ∈ cs, c.name ∉ seen) ∧
        List.Forall₂ (fun c p => p.1 = c.name ∧ s.clauseText d c = .ok p.2) cs ps := by
  induction cs generalizing seen ps with
  | nil => simp [params, eq_comm]
  | cons c cs ih =>
    unfold params
    by_cases hseen : c.name ∈ seen
    · simp [hseen, FailureKind.raise]
    · simp only [hseen, if_false, Except.bind_eq_ok_iff, ih, List.map_cons, List.nodup_cons,
        List.forall_mem_cons, List.forall₂_cons_left_iff, not_false_eq_true, true_and]
      constructor
      · rintro ⟨value, hvalue, others, ⟨hnodup, hfresh, hothers⟩, h⟩
        cases h
        refine ⟨⟨fun hc => ?_, hnodup⟩, fun k hk hmem => ?_, _, _, ⟨rfl, hvalue⟩, hothers, rfl⟩
        · obtain ⟨k, hk, hname⟩ := List.mem_map.mp hc
          exact hfresh k hk (hname ▸ List.mem_cons_self)
        · exact hfresh k hk (List.mem_cons_of_mem _ hmem)
      · rintro ⟨⟨hc, hnodup⟩, hfresh, ⟨name, value⟩, others, ⟨rfl, hvalue⟩, hothers, rfl⟩
        refine ⟨value, hvalue, others, ⟨hnodup, fun k hk hmem => ?_, hothers⟩, rfl⟩
        rcases List.mem_cons.mp hmem with hname | hmem
        · exact hc (hname ▸ List.mem_map_of_mem hk)
        · exact hfresh k hk hmem

theorem render_eq_ok_iff {op : Operation} {u : Url} : s.render d op = .ok u ↔
    op.dialect = d ∧ u.path = op.path ∧ s.params d [] op.clauses = .ok u.params := by
  obtain ⟨path, params⟩ := u
  unfold render
  by_cases hd : op.dialect = d
  · simp only [hd, if_true, Except.bind_eq_ok_iff, true_and]
    constructor
    · rintro ⟨_, hp, h⟩
      cases h
      exact ⟨rfl, hp⟩
    · rintro ⟨rfl, hp⟩
      exact ⟨_, hp, rfl⟩
  · simp [hd, FailureKind.raise]

/-- Reading the encoded url of an operation gives back its path and one parameter for each clause,
in their order, with the values that stand in the canonical url. -/
theorem ofEncoded?_of_render {op : Operation} {u : Url} (path : '?' ∉ op.path.toList)
    (h : s.render d op = .ok u) : ∃ params,
      Url.ofEncoded? u.encoded = some ⟨op.path, params⟩ ∧
      List.Forall₂ (fun c p => p.1 = c.name ∧ s.clauseText d c = .ok p.2) op.clauses params ∧
      u.canonical = op.path ++ if params = [] then "" else
        "?" ++ "&".intercalate (params.map fun p => p.1 ++ "=" ++ p.2) := by
  obtain ⟨_, hpath, hparams⟩ := render_eq_ok_iff.mp h
  obtain ⟨_, _, hclauses⟩ := params_eq_ok_iff.mp hparams
  have names : ∀ p ∈ u.params, '=' ∉ p.1.toList ∧ '&' ∉ p.1.toList := by
    intro p hp
    obtain ⟨c, _, hname, _⟩ := (exists_of_forall₂ hclauses).2 p hp
    exact hname ▸ c.not_mem_name
  have hread : Url.ofEncoded? u.encoded = some u :=
    Url.ofEncoded?_encoded (hpath ▸ path) names
  refine ⟨u.params, ?_, hclauses, ?_⟩
  · rw [hread, ← hpath]
  · rw [Url.canonical_eq, hpath]

/-- Separators, quotes and letters beyond ASCII in a filter come back as they were. -/
theorem ofEncoded?_of_render_sample : ∃ u params,
    Sample.db.schema.render .rest
      ⟨.rest, ⟨0⟩, "/site", [.filter [⟨⟨⟨0⟩, 1⟩, .eq, .string "R&D = 100% où?"⟩], .top 5]⟩ = .ok u ∧
    Url.ofEncoded? u.encoded = some ⟨"/site", params⟩ ∧
    params = [("$filter", "Title eq 'R&D = 100% où?'"), ("$top", "5")] := by
  have hr : Sample.db.schema.render .rest
      ⟨.rest, ⟨0⟩, "/site", [.filter [⟨⟨⟨0⟩, 1⟩, .eq, .string "R&D = 100% où?"⟩], .top 5]⟩ =
        .ok ⟨"/site", [("$filter", "Title eq 'R&D = 100% où?'"), ("$top", "5")]⟩ := by
    decide +kernel
  have hfilter : Sample.db.schema.clauseText .rest
      (.filter [⟨⟨⟨0⟩, 1⟩, .eq, .string "R&D = 100% où?"⟩]) = .ok "Title eq 'R&D = 100% où?'" := by
    decide +kernel
  obtain ⟨params, hread, hclauses, _⟩ := ofEncoded?_of_render (by decide) hr
  refine ⟨_, params, hr, hread, ?_⟩
  cases hclauses with
  | cons hp hclauses =>
    cases hclauses with
    | cons hq hclauses =>
      cases hclauses
      rw [hfilter] at hp
      exact congrArg₂ _ (Prod.ext hp.1 (Except.ok.inj hp.2).symm)
        (congrArg (· :: []) (Prod.ext hq.1 (Except.ok.inj hq.2).symm))

end Schema

end ODataPlan
