import Mathlib.Data.List.Basic
import ExprTree.Proofs.Expr.Typing

namespace ExprTree

inductive Binder where
  | lambda (params : List Symbol)
  | block (locals : List Symbol)
deriving DecidableEq

namespace Binder

def symbols : Binder → List Symbol
  | lambda vs | block vs => vs

def find? (b : Binder) (name : String) : Option Symbol :=
  b.symbols.find? (·.name = name)

def binds (b : Binder) (name : String) : Bool :=
  (b.find? name).isSome

def Distinct (b : Binder) : Prop :=
  (b.symbols.map (·.name)).Nodup

theorem Distinct.find?_eq_some {b : Binder} (h : b.Distinct) {v : Symbol} (mem : v ∈ b.symbols) :
    b.find? v.name = some v := by
  rw [Distinct] at h
  rw [find?]
  generalize b.symbols = vs at *
  induction vs with
  | nil => simp at mem
  | cons d ds ih =>
    rw [List.map_cons, List.nodup_cons] at h
    cases mem with
    | head => simp
    | tail _ mem =>
      have other : d.name ≠ v.name := fun eq => h.1 (eq ▸ List.mem_map_of_mem mem)
      rw [List.find?_cons_of_neg (by simpa using other)]
      exact ih h.2 mem

end Binder

abbrev Surroundings := String → List Symbol

-- What a name may mean inside of binders, the nearest of them first. A parameter hides whatever is
-- further out. A local does not, because the name may be used before the declaration.
def admissible (outside : Surroundings) (name : String) : List Binder → List Symbol
  | [] => outside name
  | .lambda params :: outer =>
    match (Binder.lambda params).find? name with
    | some v => [v]
    | none => admissible outside name outer
  | .block locals :: outer =>
    ((Binder.block locals).find? name).toList ++ admissible outside name outer

section Admissible

variable {outside outside' : Surroundings} {name : String} {v : Symbol}

theorem admissible_append (inner outer : List Binder) :
    admissible outside name (inner ++ outer) =
      admissible (fun name => admissible outside name outer) name inner := by
  induction inner with
  | nil => rfl
  | cons b inner ih => cases b <;> simp only [List.cons_append, admissible, ih]

theorem admissible_mono (h : ∀ name, outside name ⊆ outside' name) (binders : List Binder) :
    admissible outside name binders ⊆ admissible outside' name binders := by
  induction binders with
  | nil => exact h name
  | cons b outer ih =>
    cases b with
    | lambda params =>
      rw [admissible, admissible]
      split
      case h_1 => exact List.Subset.refl _
      case h_2 => exact ih
    | block locals =>
      exact List.append_subset.mpr
        ⟨List.subset_append_left _ _, List.subset_append_of_subset_right _ ih⟩

theorem eq_param_of_admissible {binders : List Binder} {params : List Symbol}
    (nearest : binders.find? (·.binds name) = some (.lambda params))
    (h : v ∈ admissible outside name binders) : (Binder.lambda params).find? name = some v := by
  induction binders with
  | nil => simp at nearest
  | cons b outer ih =>
    rw [List.find?_cons] at nearest
    split at nearest
    case h_1 binds =>
      have eq := Option.some.inj nearest
      have ⟨p, found⟩ := Option.isSome_iff_exists.mp (eq ▸ binds)
      rw [eq, admissible, found] at h
      rw [found, List.mem_singleton.mp h]
    case h_2 binds =>
      have unbound : b.find? name = none := by simpa [Binder.binds] using binds
      refine ih nearest ?_
      cases b <;> simpa [admissible, unbound] using h

theorem admissible_of_unbound {binders : List Binder}
    (unbound : binders.find? (·.binds name) = none) :
    admissible outside name binders = outside name := by
  induction binders with
  | nil => rfl
  | cons b outer ih =>
    rw [List.find?_cons] at unbound
    split at unbound
    case h_1 => simp at unbound
    case h_2 binds =>
      have none : b.find? name = none := by simpa [Binder.binds] using binds
      cases b <;> simp [admissible, none, ih unbound]

end Admissible

namespace Expr

def binder? : Expr → Option Binder
  | lambda params _ _ => some (.lambda params)
  | block locals _ _ => some (.block locals)
  | _ => none

-- A node of a tree with the binders around it, the nearest first.
structure Place where
  node    : Expr
  binders : List Binder

def places (e : Expr) : List Place :=
  ⟨e, []⟩ :: e.children.attach.flatMap fun child =>
    child.1.places.map fun p => ⟨p.node, p.binders ++ e.binder?.toList⟩
termination_by sizeOf e
decreasing_by exact sizeOf_child_lt child.2

theorem places_eq (e : Expr) :
    e.places = ⟨e, []⟩ :: e.children.flatMap fun child =>
      child.places.map fun p => ⟨p.node, p.binders ++ e.binder?.toList⟩ := by
  rw [places]
  congr 1
  conv => rhs; rw [← List.attach_map_subtype_val e.children, List.flatMap_map]

theorem map_node_places (e : Expr) : e.places.map (·.node) = e.nodes := by
  induction size : sizeOf e using Nat.strongRecOn generalizing e with
  | ind n ih =>
    rw [places_eq, nodes_eq, List.map_cons, List.map_flatMap]
    congr 1
    refine List.flatMap_congr fun child mem => ?_
    rw [List.map_map]
    exact ih _ (size ▸ sizeOf_child_lt mem) child rfl

-- The names of a binder are different from each other, and every variable is a symbol that its name
-- may mean where it stands.
def Scoped (outside : Surroundings) (e : Expr) : Prop :=
  ∀ p ∈ e.places, (∀ b ∈ p.node.binder?, b.Distinct) ∧
    ∀ v, p.node = .var v → v ∈ admissible outside v.name p.binders

def inside (e : Expr) (outside : Surroundings) : Surroundings :=
  fun name => admissible outside name e.binder?.toList

section Scoped

variable {outside outside' : Surroundings} {e : Expr}

theorem scoped_iff :
    e.Scoped outside ↔ (∀ b ∈ e.binder?, b.Distinct) ∧ (∀ v, e = .var v → v ∈ outside v.name) ∧
      ∀ child ∈ e.children, child.Scoped (e.inside outside) := by
  simp only [Scoped, places_eq e, List.forall_mem_cons, List.mem_flatMap, List.mem_map,
    admissible, and_assoc]
  refine and_congr_right fun _ => and_congr_right fun _ => ?_
  constructor
  case mp =>
    intro h child mem p placed
    have ⟨distinct, meaning⟩ := h _ ⟨child, mem, p, placed, rfl⟩
    exact ⟨distinct, fun v eq => admissible_append p.binders _ ▸ meaning v eq⟩
  case mpr =>
    rintro h _ ⟨child, mem, p, placed, rfl⟩
    have ⟨distinct, meaning⟩ := h child mem p placed
    exact ⟨distinct, fun v eq => (admissible_append p.binders _).symm ▸ meaning v eq⟩

theorem Scoped.mono (h : e.Scoped outside) (sub : ∀ name, outside name ⊆ outside' name) :
    e.Scoped outside' := by
  intro p placed
  have ⟨distinct, meaning⟩ := h p placed
  exact ⟨distinct, fun v eq => admissible_mono sub p.binders (meaning v eq)⟩

theorem scoped_var {v : Symbol} : (var v).Scoped outside ↔ v ∈ outside v.name := by
  rw [scoped_iff]
  simp [binder?, children]

theorem scoped_of_children (plain : e.binder? = none) (other : ∀ v, e ≠ .var v)
    (h : ∀ child ∈ e.children, child.Scoped outside) : e.Scoped outside := by
  have same : e.inside outside = outside := funext fun name => by simp [inside, plain, admissible]
  rw [← same] at h
  exact scoped_iff.mpr ⟨by simp [plain], fun v eq => absurd eq (other v), h⟩

end Scoped

end Expr

end ExprTree
