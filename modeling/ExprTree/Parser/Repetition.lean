import ExprTree.Parser.Primitive

namespace ExprTree

universe u v w

inductive Fold (α : Type v) (β : Type w) where
  | accepting (f : β → α → β)
  | rejecting (f : β → α → Option β)

def Fold.apply {α : Type v} {β : Type w} : Fold α β → β → α → Option β
  | accepting f, acc, a => some (f acc a)
  | rejecting f, acc, a => f acc a

-- The accumulator that a value makes out of the one in the cell, and what stays in the cell. An
-- accepting fold leaves the cell empty behind the last value. A rejecting fold may refuse that one
-- too, and then the accumulator is still to be yielded.
def Fold.takeUp {α : Type v} {β : Type w} (last : Bool) (a : α) :
    Fold α β → Option β → Option β × Option β
  | accepting f, cell => (cell.map (f · a), if last then none else cell)
  | rejecting f, cell => (cell.bind (f · a), cell)

@[simp]
theorem Fold.takeUp_full {α : Type v} {β : Type w} (fold : Fold α β) (last : Bool) (a : α)
    (acc : β) : (fold.takeUp last a (some acc)).1 = fold.apply acc a := by
  cases fold <;> rfl

@[simp]
theorem Fold.takeUp_early {α : Type v} {β : Type w} (fold : Fold α β) (a : α) (cell : Option β) :
    (fold.takeUp false a cell).2 = cell := by
  cases fold <;> rfl

structure Repetition (σ : Type u) (α : Type v) (β : Type w) where
  item : Parser σ α
  fold : Fold α β
  min  : Nat
  max  : Option Nat

namespace Repetition

variable {σ : Type u} {α : Type v} {β : Type w}

-- A branch that may still be extended: where it stands, what it has folded up, and how many items
-- it has read.
structure Branch (σ : Type u) (β : Type w) where
  cursor : Cursor σ
  acc    : β
  count  : Nat

namespace Branch

def size (b : Branch σ β) : Nat :=
  b.cursor.remaining

def parsed (b : Branch σ β) : Parsed σ β :=
  ⟨b.acc, b.cursor⟩

def extend (b : Branch σ β) (tail : Cursor σ) (acc : β) : Branch σ β :=
  ⟨tail, acc, b.count + 1⟩

def grow (b : Branch σ β) (fold : Fold α β) :
    Option β → List (Parsed σ α) → List (Branch σ β) × Option β
  | cell, [] => ([], cell)
  | cell, s :: later =>
    let taken := fold.takeUp later.isEmpty s.value cell
    let others := b.grow fold taken.2 later
    ((taken.1.map (b.extend s.tail)).toList ++ others.1, others.2)

theorem tail_mem_steps {b child : Branch σ β} {fold : Fold α β} {cell : Option β}
    {steps : List (Parsed σ α)} (h : child ∈ (b.grow fold cell steps).1) :
    ∃ s ∈ steps, child.cursor = s.tail := by
  induction steps generalizing cell with
  | nil => simp [grow] at h
  | cons s later ih =>
    cases List.mem_append.mp h with
    | inl first =>
      have ⟨_, _, eq⟩ := Option.map_eq_some_iff.mp (Option.mem_toList.mp first)
      exact ⟨s, List.mem_cons_self, eq ▸ rfl⟩
    | inr other =>
      have ⟨t, mem, eq⟩ := ih other
      exact ⟨t, List.mem_cons_of_mem s mem, eq⟩

end Branch

def steps (r : Repetition σ α β) (c : Cursor σ) : List (Parsed σ α) :=
  (r.item.parses c).filter fun s => s.tail.remaining < c.remaining

def growth (r : Repetition σ α β) (b : Branch σ β) : List (Branch σ β) × Option β :=
  b.grow r.fold (some b.acc) (r.steps b.cursor)

def children (r : Repetition σ α β) (b : Branch σ β) : List (Branch σ β) :=
  (r.growth b).1

theorem children_size_lt {r : Repetition σ α β} {b child : Branch σ β} (h : child ∈ r.children b) :
    child.size < b.size := by
  have ⟨s, mem, eq⟩ := Branch.tail_mem_steps h
  have shorter := (List.mem_filter.mp mem).2
  simpa [Branch.size, eq] using shorter

def passes (r : Repetition σ α β) (b : Branch σ β) : Nat :=
  if r.max = some b.count then 1
  else 1 + ((r.children b).attach.map fun child => r.passes child.1).foldr (· + ·) 0
termination_by b.size
decreasing_by exact children_size_lt child.2

def work (r : Repetition σ α β) (branches : List (Branch σ β)) : Nat :=
  (branches.map r.passes).foldr (· + ·) 0

@[simp]
theorem work_cons (r : Repetition σ α β) (b : Branch σ β) (below : List (Branch σ β)) :
    r.work (b :: below) = r.passes b + r.work below := rfl

@[simp]
theorem work_append (r : Repetition σ α β) (above below : List (Branch σ β)) :
    r.work (above ++ below) = r.work above + r.work below := by
  induction above with
  | nil => simp [work]
  | cons b above ih => simp [ih, Nat.add_assoc]

theorem passes_full {r : Repetition σ α β} {b : Branch σ β} (h : r.max = some b.count) :
    r.passes b = 1 := by
  rw [passes, if_pos h]

theorem passes_open {r : Repetition σ α β} {b : Branch σ β} (h : r.max ≠ some b.count) :
    r.passes b = 1 + r.work (r.children b) := by
  rw [passes, if_neg h, work, ← List.attach_map_subtype_val (r.children b), List.map_map]
  simp

-- Works the unfinished branches off, the first one first. Every pass takes one branch off the stack
-- and pushes the branches that grow out of it. Where none does, the cell decides.
def drain (r : Repetition σ α β) : List (Branch σ β) → Results (Parsed σ β)
  | [] => .nil
  | b :: below =>
    if _full : r.max = some b.count then .cons b.parsed fun _ => r.drain below
    else
      match _h : r.growth b with
      | ([], some acc) =>
        if r.min ≤ b.count then .cons ⟨acc, b.cursor⟩ fun _ => r.drain below else r.drain below
      | ([], none) => r.drain below
      | (child :: others, _) => r.drain (child :: others ++ below)
termination_by branches => r.work branches
decreasing_by
  · simp [passes_full _full]
  · rw [work_cons, passes_open _full]
    omega
  · rw [work_cons, passes_open _full]
    omega
  · rw [work_cons, passes_open _full]
    omega
  · have grown : r.children b = child :: others := congrArg Prod.fst _h
    rw [work_cons, work_append, passes_open _full, grown]
    omega

def parser (r : Repetition σ α β) (seed : β) : Parser σ β where
  run c := r.drain [⟨c, seed, 0⟩]

end Repetition

namespace Parser

variable {σ : Type u} {α γ : Type v} {β : Type v}

def repeated (p : Parser σ α) (min : Nat) (max : Option Nat) (seed : β) (f : β → α → Option β) :
    Parser σ β :=
  Repetition.parser ⟨p, .rejecting f, min, max⟩ seed

def manyFold (p : Parser σ α) (seed : β) (f : β → α → β) : Parser σ β :=
  Repetition.parser ⟨p, .accepting f, 0, none⟩ seed

def atLeast (min : Nat) (p : Parser σ α) : Parser σ (List α) :=
  List.reverse <$> Repetition.parser ⟨p, .accepting fun acc a => a :: acc, min, none⟩ []

def many (p : Parser σ α) : Parser σ (List α) :=
  p.atLeast 0

def many1 (p : Parser σ α) : Parser σ (List α) :=
  p.atLeast 1

def separated (p : Parser σ α) (separator : Parser σ γ) (seed : β) (fold : Fold α β) :
    Parser σ β := do
  let a ← p
  match fold.apply seed a with
  | none => fail
  | some acc => Repetition.parser ⟨separator *> p, fold, 0, none⟩ acc

def separatedByFold (p : Parser σ α) (separator : Parser σ γ) (seed : β) (f : β → α → Option β) :
    Parser σ β :=
  p.separated separator seed (.rejecting f)

-- Separated items as a list. A separator that no item follows is left unread.
def separatedBy (p : Parser σ α) (separator : Parser σ γ) : Parser σ (List α) :=
  List.reverse <$> p.separated separator [] (.accepting fun acc a => a :: acc)

end Parser

end ExprTree
