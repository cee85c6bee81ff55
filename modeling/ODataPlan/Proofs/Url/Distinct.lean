import ODataPlan.Proofs.Execution
import ODataPlan.Proofs.Url.Literals

/-! The entries of `$select` and `$expand` as they are written. Main statement: an entry is written
twice exactly if two of the listed paths part at fields of one model that have one name on the
dialect, and go on under the same names. -/
namespace ODataPlan

/-- The entries of a query value that lists paths. -/
def Url.entries (value : String) : List String := (value.toList.splitOn ',').map String.ofList

namespace Schema

/-- No name of a field holds what separates the paths of a list or the names of a path. -/
def Separable (s : Schema) : Prop :=
  ∀ x, s.Has x → ∀ d name, x.field.wireName.get d = some name →
    ',' ∉ name.toList ∧ '/' ∉ name.toList

/-- Two different fields of one model have one name on the dialect. -/
def Homonyms (s : Schema) (d : Dialect) (f g : FieldId) : Prop :=
  f ≠ g ∧ ∃ m ∈ s.models, ∃ x ∈ m.fields, ∃ y ∈ m.fields, x.id = f ∧ y.id = g ∧
    ∃ name ∈ x.wireName.get d, y.wireName.get d = some name

/-- Two paths part at homonyms and go on under the same names. -/
def Clash (s : Schema) (d : Dialect) : FieldPath → FieldPath → Prop
  | f :: ids, g :: ids' => (f = g ∧ s.Clash d ids ids') ∨
      (s.Homonyms d f g ∧ ids.map (s.nameOn d) = ids'.map (s.nameOn d))
  | _, _ => False

/-- No two of the paths clash. -/
def Apart (s : Schema) (d : Dialect) (paths : List FieldPath) : Prop :=
  ∀ ids ∈ paths, ∀ ids' ∈ paths, ¬ s.Clash d ids ids'

instance (s : Schema) : Decidable s.Separable :=
  decidable_of_iff (∀ m ∈ s.models, ∀ f ∈ m.fields, ∀ d ∈ Dialect.all,
      ∀ name ∈ f.wireName.get d, ',' ∉ name.toList ∧ '/' ∉ name.toList)
    ⟨fun h x hx d name hname => h x.model hx.1 x.field hx.2 d (by cases d <;> decide) name hname,
      fun h m hm f hf d _ name hname => h ⟨m, f⟩ ⟨hm, hf⟩ d name hname⟩

instance (s : Schema) (d : Dialect) (f g : FieldId) : Decidable (s.Homonyms d f g) := by
  unfold Homonyms
  infer_instance

instance decidableClash (s : Schema) (d : Dialect) : ∀ ids ids', Decidable (s.Clash d ids ids')
  | f :: ids, g :: ids' =>
    have := decidableClash s d ids ids'
    inferInstanceAs (Decidable ((f = g ∧ s.Clash d ids ids') ∨
      (s.Homonyms d f g ∧ ids.map (s.nameOn d) = ids'.map (s.nameOn d))))
  | [], _ => inferInstanceAs (Decidable False)
  | _ :: _, [] => inferInstanceAs (Decidable False)

instance (s : Schema) (d : Dialect) (paths : List FieldPath) : Decidable (s.Apart d paths) := by
  unfold Apart
  infer_instance

variable {s : Schema} {d : Dialect} {m : ModelId} {f g : FieldId} {ids ids' : FieldPath}

theorem Sound.wireName_of_has (hs : s.Sound) {x : Member} (hx : s.Has x)
    (h : s.serves d x.id = true) : x.field.wireName.get d = some (s.nameOn d x.id) :=
  wireName_nameOn (hs.member_of_has hx) h

theorem Sound.nameOn_of_has (hs : s.Sound) {x : Member} (hx : s.Has x) {name : String}
    (h : x.field.wireName.get d = some name) : s.nameOn d x.id = name := by
  simp only [nameOn, Member.id, hs.member_of_has hx, h, Option.getD_some]

/-- Different members of one model with one name are homonyms. -/
theorem Sound.homonyms_of_nameOn_eq (hs : s.Sound) {x y : Member} (hx : s.Has x) (hy : s.Has y)
    (hm : x.model.id = y.model.id) (hne : x ≠ y) (hxs : s.serves d x.id = true)
    (hys : s.serves d y.id = true) (hname : s.nameOn d x.id = s.nameOn d y.id) :
    s.Homonyms d x.id y.id := by
  refine ⟨fun hid => hne (hs.eq_of_id_eq hx hy hid), x.model, hx.1, x.field, hx.2, y.field, ?_,
    rfl, rfl, s.nameOn d x.id, hs.wireName_of_has hx hxs, ?_⟩
  · rw [hs.eq_of_model_id_eq hx.1 hy.1 hm]
    exact hy.2
  · rw [hname]
    exact hs.wireName_of_has hy hys

theorem Homonyms.nameOn_eq (h : s.Homonyms d f g) (hs : s.Sound) :
    s.nameOn d f = s.nameOn d g := by
  obtain ⟨_, m, hm, x, hx, y, hy, rfl, rfl, name, hxn, hyn⟩ := h
  have left := hs.nameOn_of_has (x := ⟨m, x⟩) ⟨hm, hx⟩ hxn
  have right := hs.nameOn_of_has (x := ⟨m, y⟩) ⟨hm, hy⟩ hyn
  exact left.trans right.symm

/-- Paths that clash are different paths under the same names. -/
theorem Clash.ne_and_names_eq (h : s.Clash d ids ids') (hs : s.Sound) :
    ids ≠ ids' ∧ ids.map (s.nameOn d) = ids'.map (s.nameOn d) := by
  induction ids generalizing ids' with
  | nil => cases h
  | cons f ids ih =>
    cases ids' with
    | nil => cases h
    | cons g ids' =>
      rcases h with ⟨rfl, h⟩ | ⟨homonyms, hrest⟩
      · obtain ⟨hne, hnames⟩ := ih h
        exact ⟨fun heq => hne (List.cons.inj heq).2, by rw [List.map_cons, hnames, List.map_cons]⟩
      · refine ⟨fun heq => homonyms.1 (List.cons.inj heq).1, ?_⟩
        rw [List.map_cons, homonyms.nameOn_eq hs, hrest, List.map_cons]

/-- Different paths from one model under the same names clash. -/
theorem Addresses.clash_of_names_eq (ha : s.Addresses d m ids) (ha' : s.Addresses d m ids')
    (hs : s.Sound) (hne : ids ≠ ids') (hnames : ids.map (s.nameOn d) = ids'.map (s.nameOn d)) :
    s.Clash d ids ids' := by
  obtain ⟨⟨before, x, hx, hl, rfl⟩, served⟩ := ha
  obtain ⟨⟨before', x', hx', hl', rfl⟩, served'⟩ := ha'
  -- as long as the chains go along the same expandables, the next fields are of one model
  generalize ht : x.model.id = t at hl
  induction hl generalizing before' with
  | nil =>
    cases hl' with
    | nil =>
      have other : x ≠ x' := fun heq => hne (by rw [heq])
      exact .inr ⟨hs.homonyms_of_nameOn_eq hx hx' ht other (served _ (by simp))
        (served' _ (by simp)) (by simpa using hnames), rfl⟩
    | cons => simp at hnames
  | @cons y e ids t hy he _ ih =>
    generalize hm : y.model.id = m' at hl'
    cases hl' with
    | nil => simp at hnames
    | @cons y' e' ids' _ hy' he' hl' =>
      rw [List.cons_append, List.forall_mem_cons] at served served'
      rw [List.cons_append, List.cons_append] at hne ⊢
      simp only [List.cons_append, List.map_cons, List.cons.injEq] at hnames
      by_cases hyy : y = y'
      · subst hyy
        obtain rfl : e = e' := FieldType.expandable.inj (he.symm.trans he')
        refine .inl ⟨rfl, ih served.2 ids' hl' (fun heq => hne (by rw [heq])) hnames.2 served'.2 ht⟩
      · exact .inr ⟨hs.homonyms_of_nameOn_eq hy hy' hm hyy served.1 served'.1 hnames.1, hnames.2⟩

theorem Separable.not_mem_nameOn (h : s.Separable) {f : FieldId} (hf : s.serves d f = true) :
    ',' ∉ (s.nameOn d f).toList ∧ '/' ∉ (s.nameOn d f).toList := by
  obtain ⟨x, hx⟩ := exists_member_of_serves hf
  exact h x (has_of_member hx) d _ (wireName_nameOn hx hf)

theorem toList_written (name : FieldId → String) (ids : FieldPath) :
    (ids.written name).toList = ['/'].intercalate (ids.map fun f => (name f).toList) := by
  have sep : "/".toList = ['/'] := rfl
  rw [FieldPath.written, String.toList_intercalate, sep, List.map_map]
  rfl

/-- A written path can be told from the others in a list. -/
theorem Separable.not_mem_written (h : s.Separable) (hids : ∀ f ∈ ids, s.serves d f = true) :
    ',' ∉ (FieldPath.written (s.nameOn d) ids).toList := by
  rw [toList_written]
  intro hc
  rcases Text.mem_intercalate_singleton hc with hc | hc
  · exact absurd hc (by decide)
  · obtain ⟨_, hname, hc⟩ := List.mem_flatten.mp hc
    obtain ⟨f, hf, rfl⟩ := List.mem_map.mp hname
    exact (h.not_mem_nameOn (hids f hf)).1 hc

/-- The names that stand between the slashes of a written path are those of its fields. -/
theorem Separable.splitOn_written (h : s.Separable) (hw : s.Writable d ids) :
    (FieldPath.written (s.nameOn d) ids).toList.splitOn '/' =
      ids.map fun f => (s.nameOn d f).toList := by
  rw [toList_written]
  refine List.splitOn_intercalate '/' (fun l hl => ?_) (by simpa using hw.1)
  obtain ⟨f, hf, rfl⟩ := List.mem_map.mp hl
  exact (h.not_mem_nameOn (hw.2 f hf)).2

/-- Different paths from a model are written alike exactly if they clash. -/
theorem Separable.written_eq_iff (h : s.Separable) (hs : s.Sound) (ha : s.Addresses d m ids)
    (ha' : s.Addresses d m ids') (hne : ids ≠ ids') :
    FieldPath.written (s.nameOn d) ids = FieldPath.written (s.nameOn d) ids' ↔
      s.Clash d ids ids' := by
  constructor
  · intro heq
    have hsplit := h.splitOn_written ha.writable
    rw [heq, h.splitOn_written ha'.writable] at hsplit
    refine ha.clash_of_names_eq ha' hs hne ?_
    apply List.map_injective_iff.mpr (fun _ _ => String.toList_injective)
    rw [List.map_map, List.map_map]
    exact hsplit.symm
  · intro hclash
    rw [FieldPath.written, FieldPath.written, (hclash.ne_and_names_eq hs).2]

/-- The entries of a list of paths, as it is written, are the written paths. -/
theorem Separable.entries_written (h : s.Separable) {paths : List FieldPath} (hne : paths ≠ [])
    (hw : ∀ ids ∈ paths, s.Writable d ids) :
    Url.entries (",".intercalate (paths.map (FieldPath.written (s.nameOn d)))) =
      paths.map (FieldPath.written (s.nameOn d)) := by
  have sep : ",".toList = [','] := rfl
  have apart : ∀ l ∈ (paths.map (FieldPath.written (s.nameOn d))).map String.toList, ',' ∉ l := by
    intro l hl
    obtain ⟨_, hw', rfl⟩ := List.mem_map.mp hl
    obtain ⟨ids, hids, rfl⟩ := List.mem_map.mp hw'
    exact h.not_mem_written (hw ids hids).2
  rw [Url.entries, String.toList_intercalate, sep,
    List.splitOn_intercalate ',' apart (by simpa using hne)]
  simp [Function.comp_def]

/-- Paths from a model that are listed once are written once exactly if no two of them clash. -/
theorem Separable.nodup_entries_iff (h : s.Separable) (hs : s.Sound) {paths : List FieldPath}
    (hne : paths ≠ []) (hnodup : paths.Nodup) (ha : ∀ ids ∈ paths, s.Addresses d m ids) :
    (Url.entries (",".intercalate (paths.map (FieldPath.written (s.nameOn d))))).Nodup ↔
      s.Apart d paths := by
  rw [h.entries_written hne fun ids hids => (ha ids hids).writable,
    List.nodup_map_iff_inj_on hnodup]
  constructor
  · intro hinj ids hids ids' hids' hclash
    have hdiff := (hclash.ne_and_names_eq hs).1
    exact hdiff (hinj ids hids ids' hids'
      ((h.written_eq_iff hs (ha ids hids) (ha ids' hids') hdiff).mpr hclash))
  · intro hapart ids hids ids' hids' heq
    by_contra hdiff
    exact hapart ids hids ids' hids'
      ((h.written_eq_iff hs (ha ids hids) (ha ids' hids') hdiff).mp heq)

end Schema

section Clauses

variable {c : Clause} {cs : List Clause} {paths : List FieldPath}

theorem Clause.exists_eq_select (h : c.name = "$select") : ∃ paths, c = select paths := by
  cases c <;> simp_all [Clause.name]

theorem Clause.exists_eq_expand (h : c.name = "$expand") : ∃ paths, c = expand paths := by
  cases c <;> simp_all [Clause.name]

/-- Where the names of clauses are distinct, what only clauses of one name hold is what one of them
holds. -/
theorem flatMap_eq_of_nodup_names {α : Type} {g : Clause → List α}
    (h : (cs.map Clause.name).Nodup) (hc : c ∈ cs) (hg : ∀ c', c'.name ≠ c.name → g c' = []) :
    cs.flatMap g = g c := by
  induction cs with
  | nil => cases hc
  | cons c' cs ih =>
    obtain ⟨hfirst, hrest⟩ := List.nodup_cons.mp h
    have differs : ∀ b ∈ cs, b.name ≠ c'.name := fun b hb hname =>
      hfirst (hname ▸ List.mem_map_of_mem hb)
    rw [List.flatMap_cons]
    rcases List.mem_cons.mp hc with rfl | hc
    · rw [List.flatMap_eq_nil_iff.mpr fun b hb => hg b (differs b hb), List.append_nil]
    · rw [hg c' (differs c hc).symm, ih hrest hc, List.nil_append]

theorem Operation.selected_eq_of_mem (op : Operation) (h : (op.clauses.map Clause.name).Nodup)
    (hc : .select paths ∈ op.clauses) : op.selected = paths :=
  flatMap_eq_of_nodup_names h hc fun c' hname => by
    cases c' <;> simp_all [Clause.name, Clause.selected]

theorem Operation.expanded_eq_of_mem (op : Operation) (h : (op.clauses.map Clause.name).Nodup)
    (hc : .expand paths ∈ op.clauses) : op.expanded = paths :=
  flatMap_eq_of_nodup_names h hc fun c' hname => by
    cases c' <;> simp_all [Clause.name, Clause.expanded]

/-- Every parameter of a rendered url is a clause of the operation in the names of its fields. -/
theorem Operation.Renderable.exists_clause_of_mem_params {op : Operation} {s : Schema} {d : Dialect}
    {url : Url} {name value : String} (hr : op.Renderable s d) (hurl : s.render d op = .ok url)
    (h : (name, value) ∈ url.params) :
    ∃ c ∈ op.clauses, c.name = name ∧ c.written (s.nameOn d) d = value := by
  have follows : s.Follows op.fields := fun f hf => Schema.exists_member_of_serves (hr.serves f hf)
  obtain ⟨_, rfl⟩ := (Schema.render_decides follows).of_eq_ok hurl
  obtain ⟨c, hc, hform⟩ := List.mem_map.mp h
  exact ⟨c, hc, Prod.mk.inj hform⟩

end Clauses

namespace Query.PlansTo

variable {q : Query} {s : Schema} {r : Resolved} {p : Plan}

theorem addresses_of_mem_expanded (hs : s.Sound) (h : q.PlansTo s r p) :
    ∀ op ∈ p.operations, ∀ ids ∈ op.expanded, s.Addresses p.dialect op.model ids := by
  intro op hop ids hids
  obtain ⟨⟨t, hl⟩, served⟩ := h.leads_of_mem_expanded hs op hop ids hids
  exact ⟨hl.exists_last (h.inlineFrom_of_expanded hs op hop ids hids).1, served⟩

/-- In the url of an operation each entry of what it selects and of what it expands is written once,
exactly as far as no two paths clash. -/
theorem nodup_entries_iff_of_render (hs : s.Sound) (h : q.PlansTo s r p) (hsep : s.Separable)
    {op : Operation} (hop : op ∈ p.operations) {url : Url}
    (hurl : s.render p.dialect op = .ok url) {value : String} :
    (("$select", value) ∈ url.params →
      ((Url.entries value).Nodup ↔ s.Apart p.dialect op.selected)) ∧
    (("$expand", value) ∈ url.params →
      ((Url.entries value).Nodup ↔ s.Apart p.dialect op.expanded)) := by
  have hr := h.renderable_of_mem_operations hs op hop
  constructor
  · intro hmem
    obtain ⟨c, hc, hname, rfl⟩ := hr.exists_clause_of_mem_params hurl hmem
    obtain ⟨paths, rfl⟩ := Clause.exists_eq_select hname
    have hpaths : op.selected = paths := op.selected_eq_of_mem hr.names hc
    rw [← hpaths] at hc ⊢
    exact hsep.nodup_entries_iff hs (hr.clauses _ hc).1 (h.nodup_selected hs op hop)
      (h.addresses_of_mem_selected hs op hop)
  · intro hmem
    obtain ⟨c, hc, hname, rfl⟩ := hr.exists_clause_of_mem_params hurl hmem
    obtain ⟨paths, rfl⟩ := Clause.exists_eq_expand hname
    have hpaths : op.expanded = paths := op.expanded_eq_of_mem hr.names hc
    rw [← hpaths] at hc ⊢
    exact hsep.nodup_entries_iff hs (hr.clauses _ hc).1 (h.nodup_expanded hs op hop)
      (h.addresses_of_mem_expanded hs op hop)

end Query.PlansTo

theorem Operation.dialect_of_request {op : Operation} {s : Schema} {d : Dialect} {id : Nat}
    {r : Request} (h : op.request s d id = .ok r) : r.dialect = op.dialect := by
  obtain ⟨url, _, h⟩ := Except.bind_eq_ok_iff.mp h
  cases h
  rfl

/-- Every request of a batch renders an operation of the plan, for the dialect of that. -/
theorem Batch.Renders.exists_operation {p : Plan} {s : Schema} {b : Batch} (h : b.Renders p s)
    {x : Request} (hx : x ∈ b.requests) :
    ∃ op ∈ p.operations, x.dialect = op.dialect ∧ s.render p.dialect op = .ok x.url := by
  rcases List.mem_cons.mp hx with rfl | hx
  · exact ⟨_, List.mem_cons_self, Operation.dialect_of_request h.primary,
      (Operation.request_eq_ok h.primary).2⟩
  · obtain ⟨y, hy, rfl⟩ := List.mem_map.mp hx
    obtain ⟨⟨f, id⟩, hf, hr⟩ := Except.exists_of_mapM_eq_ok
      (Except.mapM_eq_ok_iff.mpr h.followUps) y hy
    have hop : f.operation ∈ p.operations :=
      List.mem_cons_of_mem _ (List.mem_map_of_mem (List.fst_mem_of_mem_zipIdx hf))
    have hr := (FollowUp.request_eq_ok hr).1
    exact ⟨_, hop, Operation.dialect_of_request hr, (Operation.request_eq_ok hr).2⟩

namespace Sample

/-- A site with two fields that are one and the same on REST. -/
def labelled : Builder where
  definitions := [
    (((Definition.named "Site").withKey (.scalar "Id")).withField
      ((FieldDecl.scalar "Title").onRest (some "Label"))).withField
      ((FieldDecl.scalar "Caption").onRest (some "Label")) |>.onRest { entity := "/site" }]
  graphFirst := false

def labelledDb : Db where
  schema := (labelled.schema.toOption).getD ⟨[]⟩
  preferred := labelled.preferred
  connection := db.connection

theorem build_labelled : labelled.build db.connection = .ok labelledDb :=
  Builder.build_of_isOk (by decide +kernel) db.connection

end Sample

namespace Db

/-- Where wire names hold no separators, every request of a batch renders an operation of the plan,
and it writes each entry of `$select` and of `$expand` once, unless two of the paths that are listed
there part at fields of one model that have one name and go on under the same names. -/
theorem nodup_entries_iff_of_prepare {b : Builder} {c : Connection} {db : Db} {q : Query}
    {batch : Batch} (hb : b.build c = .ok db) (hsep : db.schema.Separable)
    (hp : db.prepare q = .ok batch) :
    ∃ p, db.plan q = .ok p ∧ ∀ r ∈ batch.requests, ∃ op ∈ p.operations,
      db.schema.render r.dialect op = .ok r.url ∧ ∀ value,
        (("$select", value) ∈ r.url.params →
          ((Url.entries value).Nodup ↔ db.schema.Apart r.dialect op.selected)) ∧
        (("$expand", value) ∈ r.url.params →
          ((Url.entries value).Nodup ↔ db.schema.Apart r.dialect op.expanded)) := by
  have hs := Builder.sound_of_build hb
  obtain ⟨p, _, hplan, h, hrenders⟩ := prepare_eq_ok hs hp
  refine ⟨p, hplan, fun r hr => ?_⟩
  obtain ⟨op, hop, hd, hurl⟩ := hrenders.exists_operation hr
  rw [hd, h.dialect_of_mem_operations hs op hop]
  exact ⟨op, hop, hurl, fun value => h.nodup_entries_iff_of_render hs hsep hop hurl⟩

/-- The title is written once, though the caption has its name as well: it is not selected. -/
theorem nodup_entries_iff_of_prepare_sample :
    ∃ batch, Sample.labelledDb.schema.Separable ∧
      Sample.labelledDb.prepare ((Query.entity "Site").select [.field "Title"]) = .ok batch ∧
      ("$select", "Id,Label") ∈ batch.primary.url.params ∧ (Url.entries "Id,Label").Nodup ∧
      ∃ p, Sample.labelledDb.plan ((Query.entity "Site").select [.field "Title"]) = .ok p ∧
        ∃ op ∈ p.operations, Sample.labelledDb.schema.Apart .rest op.selected := by
  have hsep : Sample.labelledDb.schema.Separable := by decide +kernel
  have h : (fun batch => decide (batch.primary.dialect = .rest ∧
        ("$select", "Id,Label") ∈ batch.primary.url.params)) <$>
      Sample.labelledDb.prepare ((Query.entity "Site").select [.field "Title"]) =
        .ok true := by decide +kernel
  obtain ⟨batch, hp, hmem⟩ := Except.map_eq_ok_iff.mp h
  obtain ⟨hd, hmem⟩ := of_decide_eq_true hmem
  have once : (Url.entries "Id,Label").Nodup := by decide
  obtain ⟨p, hplan, each⟩ := nodup_entries_iff_of_prepare Sample.build_labelled hsep hp
  obtain ⟨op, hop, _, entries⟩ := each batch.primary List.mem_cons_self
  refine ⟨batch, hsep, hp, hmem, once, p, hplan, op, hop, ?_⟩
  rw [← hd]
  exact ((entries _).1 hmem).mp once

/-- Together, the title and the caption clash. -/
example : ¬ Sample.labelledDb.schema.Apart .rest [[⟨⟨0⟩, 0⟩], [⟨⟨0⟩, 1⟩], [⟨⟨0⟩, 2⟩]] := by
  decide +kernel

end Db

namespace Sample

/-- A name that two fields of a model share is written once for each of them. -/
theorem exists_entry_written_twice : ∃ b c db q batch, Builder.build b c = .ok db ∧
    db.schema.Separable ∧ db.prepare q = .ok batch ∧ ∃ r ∈ batch.requests, ∃ value,
      ("$select", value) ∈ r.url.params ∧ ¬ (Url.entries value).Nodup := by
  have h : (fun batch => decide (("$select", "Id,Label,Label") ∈ batch.primary.url.params)) <$>
      labelledDb.prepare ((Query.entity "Site").select [.field "Title", .field "Caption"]) =
        .ok true := by decide +kernel
  obtain ⟨batch, hp, hmem⟩ := Except.map_eq_ok_iff.mp h
  exact ⟨_, _, _, _, batch, build_labelled, by decide +kernel, hp, batch.primary,
    List.mem_cons_self, _, of_decide_eq_true hmem, by decide⟩

end Sample

end ODataPlan
