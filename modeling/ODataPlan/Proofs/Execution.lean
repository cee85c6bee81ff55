import ODataPlan.Proofs.Rendering

/-! Running queries. Main statement: over any sequence of uses of a database, a batch is sent
exactly for each execution whose query can be prepared, and an execution either gives every field of
the plan the body that answers its request, or fails without attaching anything. -/
namespace ODataPlan

namespace Batch

variable {p : Plan} {s : Schema} {b : Batch}

/-- The requests of a plan's batch render its operations, in order and numbered from zero. -/
structure Renders (b : Batch) (p : Plan) (s : Schema) : Prop where
  primary : p.primary.request s p.dialect 0 = .ok b.primary
  followUps : List.Forall₂ (fun f r => f.1.request s p.dialect f.2 = .ok r) (p.followUps.zipIdx 1)
    b.followUps

theorem renders_of_batch (h : p.batch s = .ok b) : b.Renders p s := by
  unfold Plan.batch at h
  obtain ⟨primary, hp, h⟩ := Except.bind_eq_ok_iff.mp h
  obtain ⟨followUps, hf, h⟩ := Except.bind_eq_ok_iff.mp h
  cases h
  exact ⟨hp, Except.mapM_eq_ok_iff.mp hf⟩

end Batch

theorem Operation.request_eq_ok {op : Operation} {s : Schema} {d : Dialect} {id : Nat}
    {r : Request} (h : op.request s d id = .ok r) : r.id = id ∧ s.render d op = .ok r.url := by
  obtain ⟨url, hurl, h⟩ := Except.bind_eq_ok_iff.mp h
  cases h
  exact ⟨rfl, hurl⟩

theorem FollowUp.request_eq_ok {f : FollowUp} {s : Schema} {d : Dialect} {id : Nat}
    {r : Request × Merge} (h : f.request s d id = .ok r) :
    f.operation.request s d id = .ok r.1 ∧ ∃ x, s.member f.field = .ok x ∧
      r.2 = ⟨id, f.field, x.field.name, f.operation.model⟩ := by
  unfold FollowUp.request at h
  obtain ⟨request, hr, h⟩ := Except.bind_eq_ok_iff.mp h
  obtain ⟨x, hx, h⟩ := Except.bind_eq_ok_iff.mp h
  cases h
  refine ⟨hr, x, ?_, rfl⟩
  cases hm : s.member f.field with
  | ok y =>
    rw [hm] at hx
    exact congrArg _ (Except.ok.inj hx)
  | error e =>
    rw [hm] at hx
    cases hx

namespace Batch.Renders

variable {p : Plan} {s : Schema} {b : Batch}

theorem ids_eq (h : b.Renders p s) :
    b.requests.map (·.id) = List.range (p.followUps.length + 1) := by
  have ids : List.Forall₂ (· = ·) ((p.followUps.zipIdx 1).map Prod.snd)
      (b.followUps.map (·.1.id)) := by
    rw [List.forall₂_map_left_iff, List.forall₂_map_right_iff]
    refine h.followUps.imp fun f r hr => ?_
    exact (Operation.request_eq_ok (FollowUp.request_eq_ok hr).1).1.symm
  rw [List.forall₂_eq_eq_eq, List.zipIdx_map_snd] at ids
  rw [requests, List.map_cons, List.map_map, (Operation.request_eq_ok h.primary).1,
    List.range_eq_range', List.range'_succ]
  exact congrArg _ ids.symm

/-- The requests in front of a request have lower numbers. -/
theorem lt_of_mem_before (h : b.Renders p s) {before after : List Request} {x y : Request}
    (hcut : b.requests = before ++ x :: after) (hy : y ∈ before) : y.id < x.id := by
  have sorted : (b.requests.map (·.id)).Pairwise (· < ·) := h.ids_eq ▸ List.pairwise_lt_range
  rw [hcut, List.map_append, List.map_cons] at sorted
  exact (List.pairwise_append.mp sorted).2.2 _ (List.mem_map_of_mem hy) _ List.mem_cons_self

end Batch.Renders

namespace Execution

/-- A follow-up's field gets the body that answers the request rendered from the follow-up. -/
structure FilledBy (x : Execution) (p : Plan) (s : Schema) (f : FollowUp) (m : Merge × String) :
    Prop where
  /-- The merge is for the follow-up's expandable, under its logical name and at its target. -/
  field : ∃ y e, s.Has y ∧ y.id = f.field ∧ m.1.field = y.id ∧ m.1.fieldName = y.field.name ∧
    y.field.type = .expandable e ∧ m.1.model = e.target ∧ f.operation.model = e.target
  body : ∃ r ∈ x.batch.requests, r.id = m.1.request ∧
    s.render p.dialect f.operation = .ok r.url ∧ x.response.body? r.id = some m.2

/-- Every operation of a plan has the body that answers its own request. -/
structure Attaches (x : Execution) (p : Plan) (s : Schema) : Prop where
  ids : x.batch.requests.map (·.id) = List.range (p.followUps.length + 1)
  primary : s.render p.dialect p.primary = .ok x.batch.primary.url ∧
    x.response.body? x.batch.primary.id = some x.primary
  followUps : List.Forall₂ (x.FilledBy p s) p.followUps x.followUps

variable {x : Execution} {s : Schema}

theorem body?_eq_getD (h : ∀ r ∈ x.batch.requests, (x.response.body? r.id).isSome = true)
    {r : Request} (hr : r ∈ x.batch.requests) :
    x.response.body? r.id = some ((x.response.body? r.id).getD "") := by
  obtain ⟨body, hb⟩ := Option.isSome_iff_exists.mp (h r hr)
  rw [hb, Option.getD_some]

theorem filledBy_of_request {q : Query} {r : Resolved} {p : Plan} (hs : s.Sound)
    (h : q.PlansTo s r p) {f : FollowUp} {id : Nat} {a : Request × Merge} (hf : f ∈ p.followUps)
    (ha : a ∈ x.batch.followUps) (hr : f.request s p.dialect id = .ok a)
    (hx : ∀ r ∈ x.batch.requests, (x.response.body? r.id).isSome = true) :
    x.FilledBy p s f (a.2, (x.response.body? a.2.request).getD "") := by
  obtain ⟨hop, y, hy, hmerge⟩ := FollowUp.request_eq_ok hr
  obtain ⟨hid, hurl⟩ := Operation.request_eq_ok hop
  obtain ⟨z, e, hz, hzid, he, _, hmodel, _⟩ := h.followUp_operation hs hf
  have hz := hz.has z List.mem_cons_self
  rw [← hzid, Member.id, hs.member_of_has hz] at hy
  cases hy
  have hmem : a.1 ∈ x.batch.requests := List.mem_cons_of_mem _ (List.mem_map_of_mem ha)
  have hrequest : a.2.request = a.1.id := by rw [hmerge, hid]
  refine ⟨⟨y, e, hz, hzid, ?_⟩, a.1, hmem, hrequest.symm, hurl, ?_⟩
  · rw [hmerge]
    exact ⟨hzid.symm, rfl, he, hmodel, hmodel⟩
  · rw [hrequest]
    exact body?_eq_getD hx hmem

/-- Where every request has a body, what a plan loads is attached where it belongs. -/
theorem attaches_of_complete {q : Query} {r : Resolved} {p : Plan} (hs : s.Sound)
    (h : q.PlansTo s r p) (hb : x.batch.Renders p s)
    (hx : ∀ r ∈ x.batch.requests, (x.response.body? r.id).isSome = true) : x.Attaches p s := by
  refine ⟨hb.ids_eq,
    ⟨(Operation.request_eq_ok hb.primary).2, body?_eq_getD hx List.mem_cons_self⟩, ?_⟩
  obtain ⟨hlen, each⟩ := List.forall₂_iff_zip.mp hb.followUps
  rw [followUps, Batch.merges, List.map_map, ← List.zipIdx_map_fst 1 p.followUps,
    List.forall₂_map_left_iff, List.forall₂_map_right_iff]
  -- a follow-up and its request stand at one place, and the merge comes with the request
  refine List.forall₂_iff_zip.mpr ⟨hlen, fun hmem => ?_⟩
  obtain ⟨hf, ha⟩ := List.of_mem_zip hmem
  exact filledBy_of_request hs h (List.fst_mem_of_mem_zipIdx hf) ha (each hmem) hx

end Execution

namespace Sample

def echo : Connection := fun b => .ok (.ofList (b.requests.map fun r => (r.id, r.url.canonical)))

def echoing : Db := { db with connection := echo }

theorem build_echoing : builder.build echo = .ok echoing := build_over echo

end Sample

namespace Db

variable {db : Db} {q : Query} {b : Batch} {r : Response}

/-- A response is accepted exactly if every request has a body in it. -/
theorem accept_eq_ok_iff {x : Execution} : accept b r = .ok x ↔
    x = ⟨b, r⟩ ∧ ∀ request ∈ b.requests, (r.body? request.id).isSome = true := by
  unfold accept
  split
  · rename_i request hf
    obtain ⟨hn, before, after, hcut, _⟩ := List.find?_eq_some_iff_append.mp hf
    refine ⟨nofun, fun ⟨_, h⟩ => ?_⟩
    have := h request (by simp [hcut])
    simp_all
  · rename_i hf
    have complete : ∀ request ∈ b.requests, (r.body? request.id).isSome = true := by
      intro request hm
      simpa [Option.isSome_iff_ne_none] using List.find?_eq_none.mp hf request hm
    exact ⟨fun h => ⟨(Except.ok.inj h).symm, complete⟩, fun h => congrArg _ h.1.symm⟩

/-- Where requests are numbered in order, the first one without a body is reported. -/
theorem accept_of_missing {p : Plan} {s : Schema} (h : b.Renders p s) {x : Request}
    (hx : x ∈ b.requests) (hn : r.body? x.id = none)
    (lowest : ∀ y ∈ b.requests, r.body? y.id = none → x.id ≤ y.id) :
    accept b r = (FailureKind.missingBody x).raise := by
  have hf : b.requests.find? (fun y => (r.body? y.id).isNone) = some x := by
    obtain ⟨before, after, hcut⟩ := List.append_of_mem hx
    refine List.find?_eq_some_iff_append.mpr ⟨by simp [hn], before, after, hcut, fun y hy => ?_⟩
    cases hb : r.body? y.id with
    | some body => rfl
    | none =>
      have hle := lowest y (by simp [hcut, hy]) hb
      have hlt := h.lt_of_mem_before hcut hy
      omega
  rw [accept, hf]

/-- What the execution of a query comes to, whatever was sent before. -/
def executed (db : Db) (q : Query) : Outcome Execution := do
  let b ← db.prepare q
  match db.connection b with
  | .error e => .error (.failed e)
  | .ok r => accept b r

inductive Call where
  | plan (q : Query)
  | prepare (q : Query)
  | exec (q : Query)

inductive Answer where
  | plan (o : Outcome Plan)
  | prepare (o : Outcome Batch)
  | exec (o : Outcome Execution)

def call (db : Db) : Call → StateM Sent Answer
  | .plan q => return .plan (db.plan q)
  | .prepare q => return .prepare (db.prepare q)
  | .exec q => Answer.exec <$> db.exec q

def calls (db : Db) (cs : List Call) : StateM Sent (List Answer) := cs.mapM db.call

/-- The batches that one use hands to the connection: that of an execution whose query can be
prepared, and none otherwise. -/
def sends (db : Db) : Call → List Batch
  | .plan _ | .prepare _ => []
  | .exec q => (db.prepare q).toOption.toList

def answer (db : Db) : Call → Answer
  | .plan q => .plan (db.plan q)
  | .prepare q => .prepare (db.prepare q)
  | .exec q => .exec (db.executed q)

theorem exec_run (db : Db) (q : Query) (sent : Sent) :
    (db.exec q).run sent = (db.executed q, sent ++ (db.prepare q).toOption.toList) := by
  unfold exec executed
  cases hb : db.prepare q with
  | error e => simp only [Except.error_bind, Except.toOption, Option.toList, List.append_nil]; rfl
  | ok b =>
    simp only [send, Except.ok_bind, Except.toOption, Option.toList]
    cases db.connection b <;> rfl

theorem call_run (db : Db) (c : Call) (sent : Sent) :
    (db.call c).run sent = (db.answer c, sent ++ db.sends c) := by
  cases c with
  | plan q => rw [sends, List.append_nil]; rfl
  | prepare q => rw [sends, List.append_nil]; rfl
  | exec q => rw [call, StateT.run_map, exec_run]; rfl

/-- Uses in turn send what each of them sends, and are answered as if each were the only one. -/
theorem calls_run (db : Db) (cs : List Call) (sent : Sent) :
    (db.calls cs).run sent = (cs.map db.answer, sent ++ cs.flatMap db.sends) := by
  -- what was sent before stays general: each use appends to what the uses before it sent
  induction cs generalizing sent with
  | nil => rw [List.flatMap_nil, List.append_nil]; rfl
  | cons c cs ih =>
    unfold calls at ih ⊢
    rw [List.mapM_cons, StateT.run_bind, call_run]
    change (StateT.run (do let as ← cs.mapM db.call; pure (db.answer c :: as)) _) = _
    rw [StateT.run_bind, ih, List.append_assoc]
    rfl

/-- What the execution of a query comes to, by what the connection says to its batch. -/
structure Executes (db : Db) (q : Query) (o : Outcome Execution) : Prop where
  /-- A query that cannot be prepared fails as its preparation does. -/
  refused : ∀ e, db.prepare q = .error e → o = .error e
  /-- A failure of the connection is passed on. -/
  unanswered : ∀ b e, db.prepare q = .ok b → db.connection b = .error e → o = .error (.failed e)
  /-- A response is accepted if it has a body for every request, whatever else it holds. -/
  succeeds_iff : ∀ b r, db.prepare q = .ok b → db.connection b = .ok r →
    ((∃ x, o = .ok x) ↔ ∀ x ∈ b.requests, (r.body? x.id).isSome = true)
  /-- The first request without a body is the one that is reported. -/
  missing : ∀ b r, db.prepare q = .ok b → db.connection b = .ok r →
    ∀ x ∈ b.requests, r.body? x.id = none →
      (∀ y ∈ b.requests, r.body? y.id = none → x.id ≤ y.id) →
      o = (FailureKind.missingBody x).raise
  /-- What succeeds has the prepared batch, and every operation of the plan has its own answer. -/
  attached : ∀ x, o = .ok x → ∃ p, db.plan q = .ok p ∧ db.prepare q = .ok x.batch ∧
    db.connection x.batch = .ok x.response ∧ x.Attaches p db.schema

theorem prepare_eq_ok (hs : db.schema.Sound) (h : db.prepare q = .ok b) :
    ∃ p r, db.plan q = .ok p ∧ q.PlansTo db.schema r p ∧ b.Renders p db.schema := by
  obtain ⟨p, hp, hb⟩ := Except.bind_eq_ok_iff.mp h
  obtain ⟨r, hr⟩ := Query.plansTo_of_plan hs hp
  exact ⟨p, r, hp, hr, Batch.renders_of_batch hb⟩

theorem executed_of_answered (hb : db.prepare q = .ok b) (hr : db.connection b = .ok r) :
    db.executed q = accept b r := by
  simp [executed, hb, hr]

theorem executed_eq_ok {x : Execution} (h : db.executed q = .ok x) :
    db.prepare q = .ok x.batch ∧ db.connection x.batch = .ok x.response ∧
      ∀ request ∈ x.batch.requests, (x.response.body? request.id).isSome = true := by
  obtain ⟨b, hb, h⟩ := Except.bind_eq_ok_iff.mp h
  split at h
  · cases h
  · rename_i r hr
    obtain ⟨rfl, complete⟩ := accept_eq_ok_iff.mp h
    exact ⟨hb, hr, complete⟩

theorem executes_executed (hs : db.schema.Sound) (q : Query) : db.Executes q (db.executed q) where
  refused e hb := by simp [executed, hb]
  unanswered b e hb hr := by simp [executed, hb, hr]
  succeeds_iff b r hb hr := by
    simp [executed_of_answered hb hr, accept_eq_ok_iff]
  missing b r hb hr x hx hn lowest := by
    obtain ⟨p, _, _, _, h⟩ := prepare_eq_ok hs hb
    rw [executed_of_answered hb hr, accept_of_missing h hx hn lowest]
  attached x hx := by
    obtain ⟨hb, hr, complete⟩ := executed_eq_ok hx
    obtain ⟨p, _, hp, hplan, h⟩ := prepare_eq_ok hs hb
    exact ⟨p, hp, hb, hr, Execution.attaches_of_complete hs hplan h complete⟩

/-- What one use of a database should come to. -/
def Answers (db : Db) : Call → Answer → Prop
  | .plan q, a => a = .plan (db.plan q)
  | .prepare q, a => a = .prepare (db.prepare q)
  | .exec q, a => ∃ o, a = .exec o ∧ db.Executes q o

/-- Over any sequence of uses a batch is sent exactly for each execution of a query that can be
prepared, and every execution attaches the answer to each request where it belongs, or fails. -/
theorem calls_send_and_attach {builder : Builder} {c : Connection} {db : Db}
    (hb : builder.build c = .ok db) (cs : List Call) (sent : Sent) :
    ∃ answers, (db.calls cs).run sent = (answers, sent ++ cs.flatMap db.sends) ∧
      List.Forall₂ db.Answers cs answers := by
  have hs := Builder.sound_of_build hb
  refine ⟨cs.map db.answer, db.calls_run cs sent, ?_⟩
  rw [List.forall₂_map_right_iff, List.forall₂_same]
  intro c _
  cases c with
  | plan q => rfl
  | prepare q => rfl
  | exec q => exact ⟨_, rfl, executes_executed hs q⟩

/-- Of three uses of the sample only the execution that can be prepared sends a batch, for the site
and for its lists. -/
theorem calls_send_and_attach_sample :
    ∃ answers batch, (Sample.echoing.calls [.plan Sample.query, .exec Sample.query,
        .exec (Sample.query.top 1)]).run [] = (answers, [batch]) ∧ batch.size = 2 ∧
      List.Forall₂ Sample.echoing.Answers [.plan Sample.query, .exec Sample.query,
        .exec (Sample.query.top 1)] answers := by
  obtain ⟨answers, hrun, hanswers⟩ := calls_send_and_attach Sample.build_echoing
    [.plan Sample.query, .exec Sample.query, .exec (Sample.query.top 1)] []
  have hsent : (List.flatMap Sample.echoing.sends [.plan Sample.query, .exec Sample.query,
      .exec (Sample.query.top 1)]).map Batch.size = [2] := by decide +kernel
  obtain ⟨batch, hbatch, hsize⟩ := List.map_eq_singleton_iff.mp hsent
  exact ⟨answers, batch, by rw [hrun, hbatch]; rfl, hsize, hanswers⟩

end Db

end ODataPlan
