import ODataPlan.Distinct
import ODataPlan.Schema.Basic

/-! The normalized selection for a model: its picked scalars and, for each picked expandable, the
selection within it. Both keep the order in which they were first picked. -/
namespace ODataPlan

mutual

/-- What to load of a model. -/
inductive Selection where
  | mk (model : ModelId) (fields : List FieldId) (branches : Branches) (includeDefaults : Bool)

/-- The picked expandables of a model with what to load within each. -/
inductive Branches where
  | nil
  | cons (field : FieldId) (nested : Selection) (rest : Branches)

end

namespace Branches

def toList : Branches → List (FieldId × Selection)
  | nil => []
  | cons f n rest => (f, n) :: rest.toList

def isEmpty : Branches → Bool
  | nil => true
  | cons .. => false

/-- The selection within an expandable, if it is picked. -/
def get? (f : FieldId) : Branches → Option Selection
  | nil => none
  | cons g n rest => if g = f then some n else rest.get? f

/-- Puts a selection under an expandable: in place of the one there, else at the end. -/
def set (f : FieldId) (s : Selection) : Branches → Branches
  | nil => cons f s nil
  | cons g n rest => if g = f then cons g s rest else cons g n (rest.set f s)

@[simp] theorem toList_nil : nil.toList = [] := rfl

@[simp] theorem toList_cons (f : FieldId) (n : Selection) (rest : Branches) :
    (cons f n rest).toList = (f, n) :: rest.toList := rfl

theorem get?_set_self (f : FieldId) (s : Selection) (bs : Branches) :
    (bs.set f s).get? f = some s := by
  fun_induction set f s bs with
  | case1 => simp [get?]
  | case2 n rest => simp [get?]
  | case3 g n rest h ih => simp [get?, h, ih]

theorem get?_set_ne {f g : FieldId} (h : g ≠ f) (s : Selection) (bs : Branches) :
    (bs.set f s).get? g = bs.get? g := by
  fun_induction set f s bs with
  | case1 => simp [get?, Ne.symm h]
  | case2 n rest => simp [get?, Ne.symm h]
  | case3 k n rest hk ih =>
    simp only [get?]
    rw [ih]

end Branches

namespace Selection

def model : Selection → ModelId
  | mk m _ _ _ => m

def fields : Selection → List FieldId
  | mk _ fs _ _ => fs

def branches : Selection → Branches
  | mk _ _ bs _ => bs

/-- The default set was asked for as well. -/
def includeDefaults : Selection → Bool
  | mk _ _ _ d => d

def empty (m : ModelId) : Selection := mk m [] .nil false

/-- Nothing is picked, so the default set stands for it. -/
def isDefault (s : Selection) : Bool := s.fields.isEmpty && s.branches.isEmpty

def insertField (f : FieldId) : Selection → Selection
  | mk m fs bs d => mk m (addNew fs f) bs d

/-- Asks for the default set, or no longer. -/
def withDefaults (d : Bool) : Selection → Selection
  | mk m fs bs _ => mk m fs bs d

/-- The selection within an expandable, one that picks nothing if there is none yet. -/
def branch (f : FieldId) (target : ModelId) (s : Selection) : Selection :=
  (s.branches.get? f).getD (empty target)

def setBranch (s : Selection) (f : FieldId) (n : Selection) : Selection :=
  mk s.model s.fields (s.branches.set f n) s.includeDefaults

/-- Changes the selection within an expandable, starting from one that picks nothing. -/
def alterBranch (f : FieldId) (target : ModelId) (g : Selection → Selection) (s : Selection) :
    Selection :=
  s.setBranch f (g (s.branch f target))

end Selection

mutual

/-- Adds the key of its model to every level that picks something. -/
def Selection.ensureKey (s : Schema) : Selection → Except Dangling Selection
  | .mk m fs bs d =>
    if fs.isEmpty && bs.isEmpty then
      .ok (.mk m fs bs d)
    else do
      let owner ← s.model m
      let bs ← bs.ensureKeys s
      return .mk m (addNew fs owner.key) bs d

def Branches.ensureKeys (s : Schema) : Branches → Except Dangling Branches
  | .nil => .ok .nil
  | .cons f n rest => do
    let n ← n.ensureKey s
    let rest ← rest.ensureKeys s
    return .cons f n rest

end

namespace Selection

/-- Acts on the selection at the end of a chain of expandables and makes the levels that are missing
on the way. Levels made before an id that leads nowhere stay. -/
def actAt (s : Schema) (act : Selection → Except Dangling (Selection × α)) :
    List FieldId → Selection → Selection × Except Dangling α
  | [], here =>
    match act here with
    | .ok (changed, a) => (changed, .ok a)
    | .error e => (here, .error e)
  | f :: rest, here =>
    match s.member f with
    | .error e => (here, .error e)
    | .ok x =>
      match x.field.type.expand? with
      | none => (here, .error .foreign)
      | some e =>
        let inner := actAt s act rest (here.branch f e.target)
        (here.setBranch f inner.1, inner.2)

end Selection

end ODataPlan
