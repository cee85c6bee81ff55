import ODataPlan.Proofs.Execution
import ODataPlan.Proofs.Selection.Independence

/-! What a plan does for one expandable selected at the root. Main statement: it does the same for it
whatever is selected beside it, by the same request of its own or by the same entries of the main
request. -/
namespace ODataPlan

/-- Of blocks with distinct keys, whose entries carry the key of their block, the entries of a key
are its block. -/
theorem filter_flatMap_of_nodup {α β κ : Type} [BEq κ] [LawfulBEq κ] {key : α → κ} {mark : β → κ}
    {g : α → List β} {xs : List α} (nodup : (xs.map key).Nodup)
    (marked : ∀ x ∈ xs, ∀ y ∈ g x, mark y = key x) {x : α} (hx : x ∈ xs) :
    (xs.flatMap g).filter (mark · == key x) = g x := by
  induction xs with
  | nil => cases hx
  | cons z xs ih =>
    obtain ⟨hz, hxs⟩ := List.nodup_cons.mp nodup
    obtain ⟨first, later⟩ := List.forall_mem_cons.mp marked
    rw [List.flatMap_cons, List.filter_append]
    rcases List.mem_cons.mp hx with rfl | hx
    · have own : (g x).filter (mark · == key x) = g x :=
        List.filter_eq_self.mpr fun y hy => beq_iff_eq.mpr (first y hy)
      have others : (xs.flatMap g).filter (mark · == key x) = [] := by
        refine List.filter_eq_nil_iff.mpr fun y hy he => ?_
        obtain ⟨w, hw, hy⟩ := List.mem_flatMap.mp hy
        exact hz (List.mem_map.mpr ⟨w, hw, (later w hw y hy).symm.trans (beq_iff_eq.mp he)⟩)
      rw [own, others, List.append_nil]
    · have other : (g z).filter (mark · == key x) = [] := by
        refine List.filter_eq_nil_iff.mpr fun y hy he => ?_
        exact hz (List.mem_map.mpr ⟨x, hx, (beq_iff_eq.mp he).symm.trans (first y hy)⟩)
      rw [other, List.nil_append, ih hxs later hx]

/-- The paths that start with a field. -/
def startingWith (f : FieldId) (paths : List FieldPath) : List FieldPath :=
  paths.filter (·.head? == some f)

def Plan.fillers (p : Plan) (f : FieldId) : List FollowUp := p.followUps.filter (·.field == f)

/-- The urls of the requests that fill a field. -/
def Batch.urlsFor (b : Batch) (f : FieldId) : List Url :=
  (b.followUps.filter (·.2.field == f)).map (·.1.url)

/-- Two plans load an expandable in one way. -/
structure Plan.LoadAlike (f : FieldId) (p p' : Plan) : Prop where
  /-- Both do so by the same request, or both inline. -/
  once : (∃ op, p.fillers f = [⟨f, op⟩] ∧ p'.fillers f = [⟨f, op⟩]) ∨
    (p.fillers f = [] ∧ p'.fillers f = [] ∧ [f] ∈ p.primary.expanded ∧ [f] ∈ p'.primary.expanded)
  /-- Their main requests select the same paths from it, in the same order. -/
  selected : startingWith f p.primary.selected = startingWith f p'.primary.selected
  /-- They expand the same paths from it, in the same order. -/
  expanded : startingWith f p.primary.expanded = startingWith f p'.primary.expanded

variable {s : Schema} {d : Dialect}

theorem startingWith_eq_nil {f : FieldId} {paths : List FieldPath}
    (h : ∀ ids ∈ paths, ids.head? ≠ some f) : startingWith f paths = [] :=
  List.filter_eq_nil_iff.mpr fun ids hids => by simpa using h ids hids

namespace Selection

theorem head?_of_mem_levelEntries {a : Selection} {f : FieldId} {rest ids : FieldPath}
    (h : ids ∈ a.levelEntries s d (f :: rest)) : ids.head? = some f := by
  rcases mem_levelEntries.mp h with ⟨_, rfl⟩ | ⟨_, h⟩
  · rfl
  · obtain ⟨g, _, rfl, _⟩ := mem_ownEntries.mp h
    rfl

end Selection

namespace Member

variable {x : Member} {a : Selection} {ids : FieldPath}

/-- What loading an expandable selects starts with its field. -/
theorem head?_of_mem_select_loaded (ha : a.WellTyped s)
    (h : ids ∈ (x.loaded s d a).1.select) : ids.head? = some x.id := by
  unfold loaded at h
  split at h
  · obtain ⟨rest, n, _, h⟩ := ha.mem_select_block_iff.mp h
    exact Selection.head?_of_mem_levelEntries h
  · rw [Projection.select_selecting] at h
    split at h
    · rw [List.mem_singleton.mp h]
      rfl
    · cases h

/-- What loading an expandable expands starts with its field. -/
theorem head?_of_mem_expand_loaded (ha : a.WellTyped s)
    (h : ids ∈ (x.loaded s d a).1.expand) : ids.head? = some x.id := by
  unfold loaded at h
  split at h
  · obtain ⟨rest, n, _, rfl⟩ := ha.mem_expand_block_iff.mp h
    rfl
  · cases h

/-- The request of an expandable fills its field. -/
theorem field_of_mem_loaded {f : FollowUp} (h : f ∈ (x.loaded s d a).2) : f.field = x.id := by
  unfold loaded at h
  split at h
  · cases h
  · rw [List.mem_singleton.mp h]
    rfl

end Member

namespace Query.ResolvesTo

variable {q : Query} {r : Resolved} {picks : List Pick} {x : Member} {a : Selection}

theorem block_of_expansion (h : q.ResolvesTo s r picks) (hs : s.Sound)
    (hx : (x, a) ∈ r.expansions) :
    r.block s d = (.selecting (r.rootEntries s d) ++ .concat ((r.loaded s d).map (·.1)) ++
      .selecting (r.model.requiredEntries d), (r.loaded s d).flatMap (·.2)) := by
  rw [Resolved.block, h.isDefault_of_expansion hs hx]
  rfl

/-- An expandable is no scalar of the model. -/
theorem not_hasScalar_of_expansion (h : q.ResolvesTo s r picks) (hs : s.Sound)
    (hx : (x, a) ∈ r.expansions) : ¬ r.model.HasScalar x.id := by
  rintro ⟨f, hf, hid, scalar⟩
  obtain ⟨_, e, he, _⟩ := h.target_of_expansion hs hx
  cases hs.eq_of_id_eq (x := ⟨r.model, f⟩) ⟨h.model_mem, hf⟩ ((h.mem_expansions_iff hs).mp hx).1 hid
  rw [scalar] at he
  cases he

/-- The main request's own entries are scalars of the model. -/
theorem exists_scalar_of_mem_rootEntries (h : q.ResolvesTo s r picks) (hs : s.Sound)
    {ids : FieldPath} (hids : ids ∈ r.rootEntries s d) : ∃ f, r.model.HasScalar f ∧ ids = [f] := by
  rcases List.mem_append.mp hids with hids | hids
  · obtain ⟨_, rfl⟩ := Schema.mem_entry.mp hids
    obtain ⟨k, hk, _, hid, scalar⟩ := hs.key_scalar r.model h.model_mem
    exact ⟨_, ⟨k, hk, hid, scalar⟩, rfl⟩
  · obtain ⟨f, hf, hids⟩ := List.mem_flatMap.mp hids
    obtain ⟨_, rfl⟩ := Schema.mem_entry.mp hids
    obtain ⟨_, picked⟩ := Bool.and_eq_true_iff.mp (List.mem_filter.mp hf).2
    obtain ⟨hw, hid⟩ := h.wellTyped hs
    exact ⟨_, hw.hasScalar hs h.model_mem hid (List.contains_iff_mem.mp picked), rfl⟩

theorem exists_scalar_of_mem_requiredEntries (h : q.ResolvesTo s r picks) (hs : s.Sound)
    {ids : FieldPath} (hids : ids ∈ r.model.requiredEntries d) :
    ∃ f, r.model.HasScalar f ∧ ids = [f] := by
  obtain ⟨f, hf, rfl, hd⟩ := hs.scalar_of_mem_requiredEntries h.model_mem hids
  refine ⟨f.id, ⟨f, hf, rfl, ?_⟩, rfl⟩
  cases ht : f.type with
  | scalar => rfl
  | expandable e => simp [FieldDecl.isScalarOn, FieldDecl.isExpandable, ht] at hd

/-- Of what the expandables come to, the entries marked with one of them come from it. -/
theorem filter_flatMap_expansions {β κ : Type} [BEq κ] [LawfulBEq κ] {name : FieldId → κ}
    {mark : β → κ} {g : Projection × List FollowUp → List β} (h : q.ResolvesTo s r picks)
    (hs : s.Sound) (inj : Function.Injective name) (hx : (x, a) ∈ r.expansions)
    (marked : ∀ u ∈ r.expansions, ∀ y ∈ g (u.1.loaded s d u.2), mark y = name u.1.id) :
    ((r.loaded s d).flatMap g).filter (mark · == name x.id) = g (x.loaded s d a) := by
  have nodup : (r.expansions.map fun u => name u.1.id).Nodup := by
    have ids := (r.nodup_expansions hs h.model_mem).map inj
    rwa [List.map_map] at ids
  rw [Resolved.loaded, List.flatMap_map]
  exact filter_flatMap_of_nodup nodup marked hx

/-- What starts with an expandable is no scalar of the model. -/
theorem startingWith_scalars (h : q.ResolvesTo s r picks) (hs : s.Sound)
    (hx : (x, a) ∈ r.expansions) {paths : List FieldPath}
    (scalars : ∀ ids ∈ paths, ∃ f, r.model.HasScalar f ∧ ids = [f]) :
    startingWith x.id paths = [] := by
  refine startingWith_eq_nil fun ids hids he => ?_
  obtain ⟨f, scalar, rfl⟩ := scalars ids hids
  cases he
  exact h.not_hasScalar_of_expansion hs hx scalar

theorem startingWith_select (h : q.ResolvesTo s r picks) (hs : s.Sound)
    (hx : (x, a) ∈ r.expansions) :
    startingWith x.id (r.block s d).1.select = (x.loaded s d a).1.select := by
  have root := h.startingWith_scalars hs hx fun ids => h.exists_scalar_of_mem_rootEntries (d := d) hs
  have required := h.startingWith_scalars hs hx fun ids =>
    h.exists_scalar_of_mem_requiredEntries (d := d) hs
  have loaded : startingWith x.id ((r.loaded s d).flatMap (·.1.select)) = _ :=
    h.filter_flatMap_expansions hs (fun _ _ => Option.some.inj) hx fun u hu ids hids =>
      Member.head?_of_mem_select_loaded (h.target_of_expansion hs hu).1 hids
  unfold startingWith at root required loaded ⊢
  simp only [h.block_of_expansion hs hx, Projection.select_append, Projection.select_selecting,
    Projection.select_concat, List.flatMap_map, List.filter_append, root, required, loaded,
    List.nil_append, List.append_nil]

theorem startingWith_expand (h : q.ResolvesTo s r picks) (hs : s.Sound)
    (hx : (x, a) ∈ r.expansions) :
    startingWith x.id (r.block s d).1.expand = (x.loaded s d a).1.expand := by
  have loaded : startingWith x.id ((r.loaded s d).flatMap (·.1.expand)) = _ :=
    h.filter_flatMap_expansions hs (fun _ _ => Option.some.inj) hx fun u hu ids hids =>
      Member.head?_of_mem_expand_loaded (h.target_of_expansion hs hu).1 hids
  simpa [h.block_of_expansion hs hx, List.flatMap_map] using loaded

end Query.ResolvesTo

namespace Query.PlansTo

variable {q q' : Query} {r r' : Resolved} {p p' : Plan} {x : Member} {a : Selection}

/-- The requests that fill an expandable are what loading it comes to. -/
theorem fillers_eq (h : q.PlansTo s r p) (hs : s.Sound) (hx : (x, a) ∈ r.expansions) :
    p.fillers x.id = (x.loaded s p.dialect a).2 := by
  obtain ⟨picks, hq⟩ := h.resolves
  have followUps : p.followUps = (r.loaded s p.dialect).flatMap (·.2) := by
    rw [congrArg Plan.followUps h.planned]
    exact congrArg Prod.snd (hq.block_of_expansion hs hx)
  rw [Plan.fillers, followUps]
  exact hq.filter_flatMap_expansions hs Function.injective_id hx fun u _ f hf =>
    Member.field_of_mem_loaded hf

theorem startingWith_selected (h : q.PlansTo s r p) (hs : s.Sound) (hx : (x, a) ∈ r.expansions) :
    startingWith x.id p.primary.selected = (x.loaded s p.dialect a).1.select.eraseDups := by
  obtain ⟨picks, hq⟩ := h.resolves
  rw [congrArg Plan.primary h.planned, Resolved.selected_primary, startingWith, filter_eraseDups]
  exact congrArg _ (hq.startingWith_select hs hx)

theorem startingWith_expanded (h : q.PlansTo s r p) (hs : s.Sound) (hx : (x, a) ∈ r.expansions) :
    startingWith x.id p.primary.expanded = (x.loaded s p.dialect a).1.expand.eraseDups := by
  obtain ⟨picks, hq⟩ := h.resolves
  rw [congrArg Plan.primary h.planned, Resolved.expanded_primary, startingWith, filter_eraseDups]
  exact congrArg _ (hq.startingWith_expand hs hx)

theorem mem_expanded_of_inlineAt (h : q.PlansTo s r p) (hs : s.Sound) (hx : (x, a) ∈ r.expansions)
    (hi : x.InlineAt p.dialect 1) : [x.id] ∈ p.primary.expanded := by
  obtain ⟨picks, hq⟩ := h.resolves
  have ha := (hq.target_of_expansion hs hx).1
  exact (h.mem_expanded_primary_iff hs).mpr
    ⟨x, a, hx, hi, ha.mem_expand_block_iff.mpr ⟨[], a, rfl, rfl⟩⟩

/-- Where two plans on one dialect have the same selected within an expandable, they load it in one
way. -/
theorem loadAlike (h : q.PlansTo s r p) (h' : q'.PlansTo s r' p') (hs : s.Sound)
    (hd : p.dialect = p'.dialect) (hx : (x, a) ∈ r.expansions) (hx' : (x, a) ∈ r'.expansions) :
    p.LoadAlike x.id p' := by
  refine ⟨?_, ?_, ?_⟩
  · by_cases hi : x.InlineAt p.dialect 1
    · refine .inr ⟨?_, ?_, h.mem_expanded_of_inlineAt hs hx hi,
        h'.mem_expanded_of_inlineAt hs hx' (hd ▸ hi)⟩
      · rw [h.fillers_eq hs hx, Member.loaded, if_pos hi]
      · rw [h'.fillers_eq hs hx', Member.loaded, ← hd, if_pos hi]
    · refine .inl ⟨(x.request s p.dialect a).operation, ?_, ?_⟩
      · rw [h.fillers_eq hs hx, Member.loaded, if_neg hi]
        rfl
      · rw [h'.fillers_eq hs hx', Member.loaded, ← hd, if_neg hi]
        rfl
  · rw [h.startingWith_selected hs hx, h'.startingWith_selected hs hx', hd]
  · rw [h.startingWith_expanded hs hx, h'.startingWith_expanded hs hx', hd]

end Query.PlansTo

/-- A list with the entries of another put in, in turn and at any places. -/
inductive Interleaved {α : Type} : List α → List α → List α → Prop
  | nil : Interleaved [] [] []
  | keep (x : α) {xs extra ys} (rest : Interleaved xs extra ys) :
    Interleaved (x :: xs) extra (x :: ys)
  | put (z : α) {xs extra ys} (rest : Interleaved xs extra ys) :
    Interleaved xs (z :: extra) (z :: ys)

namespace Interleaved

variable {α : Type} {xs extra ys : List α}

/-- What is put in goes unseen where none of it is looked for. -/
theorem filter_eq (h : Interleaved xs extra ys) {keep : α → Bool}
    (hextra : ∀ z ∈ extra, keep z = false) : ys.filter keep = xs.filter keep := by
  induction h with
  | nil => rfl
  | keep x _ ih => rw [List.filter_cons, List.filter_cons, ih hextra]
  | put z _ ih =>
    obtain ⟨hz, hextra⟩ := List.forall_mem_cons.mp hextra
    rw [List.filter_cons_of_neg (Bool.eq_false_iff.mp hz), ih hextra]

end Interleaved

/-- An expandable selected at the root stands under its name in the model of the query. -/
theorem Query.Names.field? {q : Query} {x : Member} (h : q.Names s .expandable [x]) {m : Model}
    (hm : s.modelNamed? q.model = some m) : m.field? x.field.name = some x.field := by
  obtain ⟨n, hn, z, _, named⟩ := h
  cases hm.symm.trans hn
  cases named with
  | @expandable _ _ f e found _ =>
    have hname : f.name = z.name := by simpa using List.find?_some found
    rw [hname]
    exact found
  | within _ _ _ _ names => exact absurd rfl names.ne_nil

namespace Query

variable {q q' : Query} {r r' : Resolved} {p p' : Plan} {x : Member}

/-- Two plans on one dialect, for queries of one model with the same selectors of an expandable's
name in the same order, load it in one way. -/
theorem PlansTo.loadAlike_of_filter_eq (h : q.PlansTo s r p) (h' : q'.PlansTo s r' p')
    (hs : s.Sound) (hd : p.dialect = p'.dialect) (hx : q.Names s .expandable [x])
    (hmodel : q'.model = q.model) (hsame : q.allSelectors.filter (·.name == x.field.name) =
      q'.allSelectors.filter (·.name == x.field.name)) : p.LoadAlike x.id p' := by
  obtain ⟨picks, hq⟩ := h.resolves
  obtain ⟨picks', hq'⟩ := h'.resolves
  have hm : r.model = r'.model := by
    have := hq'.model
    rw [hmodel, hq.model] at this
    exact Option.some.inj this
  obtain ⟨a, ha⟩ := (hq.exists_expansion_iff hs).mpr hx
  obtain ⟨has, hget⟩ := (hq.mem_expansions_iff hs).mp ha
  have same : r.selection.branches.get? x.id = r'.selection.branches.get? x.id :=
    hq.get?_congr hq' hs hm (hx.field? hq.model) hsame
  have ha' := (hq'.mem_expansions_iff hs).mpr ⟨has, same ▸ hget⟩
  exact h.loadAlike h' hs hd ha ha'

end Query

theorem Plan.LoadAlike.fillers_eq {p p' : Plan} {f : FieldId} (h : p.LoadAlike f p') :
    p.fillers f = p'.fillers f := by
  rcases h.once with ⟨op, hp, hp'⟩ | ⟨hp, hp', _⟩ <;> rw [hp, hp']

namespace Batch.Renders

variable {p p' : Plan} {b b' : Batch}

/-- The urls for a field are rendered from the follow-ups that fill it. -/
theorem urlsFor (h : b.Renders p s) (f : FieldId) :
    List.Forall₂ (fun g url => s.render p.dialect g.operation = .ok url) (p.fillers f)
      (b.urlsFor f) := by
  have each : List.Forall₂ (fun g a => a.2.field = g.field ∧
      s.render p.dialect g.operation = .ok a.1.url) p.followUps b.followUps := by
    rw [← List.zipIdx_map_fst 1 p.followUps, List.forall₂_map_left_iff]
    refine h.followUps.imp fun g a ha => ?_
    obtain ⟨hop, x, _, hmerge⟩ := FollowUp.request_eq_ok ha
    exact ⟨by rw [hmerge], (Operation.request_eq_ok hop).2⟩
  rw [Batch.urlsFor, List.forall₂_map_right_iff]
  refine (List.rel_filter (fun g a ha => ?_) each).imp fun _ _ => And.right
  simp only [beq_iff_eq, ha.1]

/-- Plans that load an expandable in one way send the same urls for it. -/
theorem urlsFor_eq (h : b.Renders p s) (h' : b'.Renders p' s) (hd : p.dialect = p'.dialect)
    {f : FieldId} (hload : p.LoadAlike f p') : b.urlsFor f = b'.urlsFor f := by
  have right := h'.urlsFor f
  rw [← hd, ← hload.fillers_eq] at right
  refine List.right_unique_forall₂' (fun g url url' hu hu' => ?_) (h.urlsFor f) right
  exact Except.ok.inj (hu.symm.trans hu')

end Batch.Renders

namespace Sample

def lists : Query := (Query.entity "Site").select [.nested "Lists" [.field "Title"]]

/-- The sample query selects the title and the owner in front of the lists. -/
theorem interleaved_lists : Interleaved lists.allSelectors
    [.field "Title", .nested "Owner" [.field "Name"]] query.allSelectors :=
  .put _ (.put _ (.keep _ .nil))

end Sample

namespace Db

/-- Selectors put between those of a query, at any places and none of them for a given expandable
selected at the root, leave how it is loaded as it is: it has the same request of its own, at the
same url, or the same entries of the main request in the same order. -/
theorem loadAlike_of_interleaved {b : Builder} {c : Connection} {db : Db} {q q' : Query}
    {x : Member} {extra : List Selector} {p p' : Plan} (hb : b.build c = .ok db)
    (hx : q.Names db.schema .expandable [x]) (hmodel : q'.model = q.model)
    (hin : Interleaved q.allSelectors extra q'.allSelectors)
    (hextra : ∀ z ∈ extra, z.name ≠ x.field.name) (hp : db.plan q = .ok p)
    (hp' : db.plan q' = .ok p') (hd : p.dialect = p'.dialect) :
    p.LoadAlike x.id p' ∧ ∃ batch batch', db.prepare q = .ok batch ∧ db.prepare q' = .ok batch' ∧
      batch.urlsFor x.id = batch'.urlsFor x.id := by
  have hs := Builder.sound_of_build hb
  obtain ⟨r, h⟩ := Query.plansTo_of_plan hs hp
  obtain ⟨r', h'⟩ := Query.plansTo_of_plan hs hp'
  have same : q'.allSelectors.filter (·.name == x.field.name) =
      q.allSelectors.filter (·.name == x.field.name) :=
    hin.filter_eq fun z hz => by simpa using hextra z hz
  have hload := h.loadAlike_of_filter_eq h' hs hd hx hmodel same.symm
  obtain ⟨batch, hbatch⟩ := h.exists_batch hs
  obtain ⟨batch', hbatch'⟩ := h'.exists_batch hs
  refine ⟨hload, batch, batch', ?_, ?_, ?_⟩
  · rw [prepare, hp]
    exact hbatch
  · rw [prepare, hp']
    exact hbatch'
  · exact (Batch.renders_of_batch hbatch).urlsFor_eq (Batch.renders_of_batch hbatch') hd hload

/-- The lists of a site are loaded alone as they are beside its title and its owner. -/
theorem loadAlike_of_interleaved_sample : ∃ p p', Sample.db.plan Sample.lists = .ok p ∧
    Sample.db.plan Sample.query = .ok p' ∧ p.LoadAlike ⟨⟨0⟩, 3⟩ p' ∧
    ∃ b b', Sample.db.prepare Sample.lists = .ok b ∧ Sample.db.prepare Sample.query = .ok b' ∧
      b.urlsFor ⟨⟨0⟩, 3⟩ = b'.urlsFor ⟨⟨0⟩, 3⟩ := by
  have hplan : (·.dialect) <$> Sample.db.plan Sample.lists = .ok Dialect.rest := by decide +kernel
  have hplan' : (·.dialect) <$> Sample.db.plan Sample.query = .ok Dialect.rest := by decide +kernel
  obtain ⟨p, hp, hd⟩ := Except.map_eq_ok_iff.mp hplan
  obtain ⟨p', hp', hd'⟩ := Except.map_eq_ok_iff.mp hplan'
  have found : ((Sample.db.schema.modelNamed? "Site").bind fun m => (m.field? "Lists").map
      fun f => (f.id, f.isExpandable)) = some (⟨⟨0⟩, 3⟩, true) := by decide +kernel
  obtain ⟨m, hm, found⟩ := Option.bind_eq_some_iff.mp found
  obtain ⟨f, hf, found⟩ := Option.map_eq_some_iff.mp found
  obtain ⟨hid, he⟩ := Prod.mk.inj found
  have hname : f.name = "Lists" := by simpa using List.find?_some hf
  have hx : Sample.lists.Names Sample.db.schema .expandable [⟨m, f⟩] := by
    refine ⟨m, hm, _, List.mem_cons_self, ?_⟩
    cases ht : f.type with
    | scalar => simp [FieldDecl.isExpandable, ht] at he
    | expandable e => exact .expandable hf ht
  have model : Sample.query.model = Sample.lists.model := rfl
  have others : ∀ z ∈ [Selector.field "Title", .nested "Owner" [.field "Name"]],
      z.name ≠ f.name := by
    simp [hname, Selector.name]
  have hload := loadAlike_of_interleaved Sample.build_eq hx model Sample.interleaved_lists others hp
    hp' (hd.trans hd'.symm)
  rw [Member.id, hid] at hload
  exact ⟨p, p', hp, hp', hload⟩

end Db

end ODataPlan
