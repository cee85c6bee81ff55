/-! Raw bodies by the id of the request that they answer, in the order in which they were added. -/
namespace ODataPlan

/-- The bodies of a response. -/
structure Response where
  bodies : List (Nat × String) := []
deriving DecidableEq, Repr

namespace Response

def body? (r : Response) (request : Nat) : Option String := r.bodies.lookup request

/-- Sets a body in a list: in place of the one there, else at the end. -/
def setBody (request : Nat) (body : String) : List (Nat × String) → List (Nat × String)
  | [] => [(request, body)]
  | (id, old) :: rest =>
    if id = request then (id, body) :: rest else (id, old) :: setBody request body rest

def insert (r : Response) (request : Nat) (body : String) : Response :=
  ⟨setBody request body r.bodies⟩

def ofList (bodies : List (Nat × String)) : Response :=
  bodies.foldl (fun r b => r.insert b.1 b.2) {}

theorem lookup_setBody (request : Nat) (body : String) (bs : List (Nat × String)) (id : Nat) :
    (setBody request body bs).lookup id = if id = request then some body else bs.lookup id := by
  fun_induction setBody request body bs with
  | case1 => by_cases h : id = request <;> simp [List.lookup_cons, h, beq_eq_false_iff_ne.mpr]
  | case2 old rest =>
    by_cases h : id = request <;> simp [List.lookup_cons, h, beq_eq_false_iff_ne.mpr]
  | case3 i old rest hi ih =>
    by_cases h : id = i
    · subst h
      simp [hi]
    · simp [List.lookup_cons, beq_eq_false_iff_ne.mpr h, ih]

@[simp] theorem body?_insert (r : Response) (request : Nat) (body : String) (id : Nat) :
    (r.insert request body).body? id = if id = request then some body else r.body? id :=
  lookup_setBody ..

end Response

end ODataPlan
