import Mathlib.Data.List.Basic
import ExprTree.Parser.Repetition
import ExprTree.Proofs.Cursor

namespace ExprTree

universe u v w

def Parser.StaysInside {σ : Type u} {α : Type v} (p : Parser σ α) : Prop :=
  ∀ c, c.Valid → ∀ s ∈ p.parses c, s.tail.Valid ∧ s.tail.source = c.source

namespace Repetition

variable {σ : Type u} {α : Type v} {β : Type w} {r : Repetition σ α β}

section Cell

variable (b : Branch σ β) (fold : Fold α β) (steps : List (Parsed σ α))

theorem grow_children :
    (b.grow fold (some b.acc) steps).1 =
      steps.filterMap fun s => (fold.apply b.acc s.value).map (b.extend s.tail) := by
  induction steps with
  | nil => rfl
  | cons s later ih =>
    -- Behind the last step nothing looks into the cell.
    have others : (b.grow fold (fold.takeUp later.isEmpty s.value (some b.acc)).2 later).1 =
        later.filterMap fun s => (fold.apply b.acc s.value).map (b.extend s.tail) := by
      cases later with
      | nil => rfl
      | cons => rw [List.isEmpty_cons, Fold.takeUp_early, ih]
    simp only [Branch.grow, Fold.takeUp_full, others]
    cases h : fold.apply b.acc s.value <;> simp [h]

theorem grow_rejecting (f : β → α → Option β) (cell : Option β) :
    (b.grow (.rejecting f) cell steps).2 = cell := by
  induction steps with
  | nil => rfl
  | cons s later ih => exact ih

variable {b fold steps}

-- The accumulator of a branch that nothing extends is in its cell. An accepting fold empties it only
-- if there is a step, and then it extends the branch.
theorem grow_cell (final : (b.grow fold (some b.acc) steps).1 = []) :
    (b.grow fold (some b.acc) steps).2 = some b.acc := by
  cases fold with
  | accepting f =>
    rw [grow_children, List.filterMap_eq_nil_iff] at final
    cases steps with
    | nil => rfl
    | cons s later => cases final s List.mem_cons_self
  | rejecting f => exact grow_rejecting b steps f (some b.acc)

end Cell

theorem children_eq (r : Repetition σ α β) (b : Branch σ β) :
    r.children b = (r.item.parses b.cursor).filterMap fun s =>
      if s.tail.remaining < b.cursor.remaining
      then (r.fold.apply b.acc s.value).map (b.extend s.tail)
      else none := by
  rw [children, growth, grow_children, steps, List.filterMap_filter]
  simp

theorem growth_extended {b child : Branch σ β} {others : List (Branch σ β)}
    (h : r.children b = child :: others) : r.growth b = (child :: others, (r.growth b).2) :=
  Prod.ext h rfl

theorem growth_final {b : Branch σ β} (h : r.children b = []) : r.growth b = ([], some b.acc) :=
  Prod.ext h (grow_cell h)

example :
    let r : Repetition Unit String Nat :=
      ⟨(Parser.text "a").append (Parser.text "aa"), .accepting fun n s => n + s.length, 0, none⟩
    let c : Cursor Unit := .start "aa" ()
    (r.growth ⟨c, 0, 0⟩).1.map (·.acc) = [1, 2] ∧ (r.growth ⟨c, 0, 0⟩).2 = none ∧
      (r.growth ⟨c.drop 2, 2, 1⟩).2 = some 2 := by
  decide +kernel

theorem mem_children_iff {b child : Branch σ β} :
    child ∈ r.children b ↔
      ∃ s ∈ r.item.parses b.cursor, s.tail.remaining < b.cursor.remaining ∧
        ∃ acc, r.fold.apply b.acc s.value = some acc ∧ b.extend s.tail acc = child := by
  simp [children_eq]

structure Finished (r : Repetition σ α β) (b : Branch σ β) : Prop where
  enough : r.max = some b.count ∨ r.min ≤ b.count
  final  : r.max = some b.count ∨ r.children b = []

def pass (r : Repetition σ α β) : List (Branch σ β) → List (Parsed σ β) × List (Branch σ β)
  | [] => ([], [])
  | b :: below =>
    if r.max = some b.count then ([b.parsed], below)
    else
      match r.growth b with
      | ([], some acc) => (if r.min ≤ b.count then [⟨acc, b.cursor⟩] else [], below)
      | ([], none) => ([], below)
      | (child :: others, _) => ([], child :: others ++ below)

-- The case of an empty cell does not arise.
theorem pass_cons (r : Repetition σ α β) (b : Branch σ β) (below : List (Branch σ β)) :
    r.pass (b :: below) =
      if r.max = some b.count then ([b.parsed], below)
      else
        match r.children b with
        | [] => (if r.min ≤ b.count then [b.parsed] else [], below)
        | child :: others => ([], child :: others ++ below) := by
  rw [pass]
  split
  case isTrue => rfl
  case isFalse =>
    cases h : r.children b with
    | nil => rw [growth_final h]; rfl
    | cons child others => rw [growth_extended h]

def run (r : Repetition σ α β) :
    Nat → List (Branch σ β) → List (Parsed σ β) × List (Branch σ β)
  | 0, branches => ([], branches)
  | n + 1, branches =>
    let rest := r.run n (r.pass branches).2
    ((r.pass branches).1 ++ rest.1, rest.2)

theorem toList_drain_pass (r : Repetition σ α β) (branches : List (Branch σ β)) :
    (r.drain branches).toList =
      (r.pass branches).1 ++ (r.drain (r.pass branches).2).toList := by
  cases branches with
  | nil => simp [pass, drain]
  | cons b below =>
    rw [drain, pass]
    split
    case isTrue => rfl
    case isFalse =>
      split
      case h_1 h =>
        rw [h]
        split <;> simp [*]
      case h_2 h => simp [h]
      case h_3 h => simp [h]

theorem work_pass (b : Branch σ β) (below : List (Branch σ β)) :
    r.work (b :: below) = r.work (r.pass (b :: below)).2 + 1 := by
  rw [work_cons, pass_cons]
  split
  case isTrue full => rw [passes_full full, Nat.add_comm]
  case isFalse full =>
    rw [passes_open full]
    split
    case h_1 h => simp [h, work, Nat.add_comm]
    case h_2 h =>
      rw [h, work_append]
      omega

-- The loop comes to its end, and it yields what `drain` yields.
theorem run_work (r : Repetition σ α β) (branches : List (Branch σ β)) :
    r.run (r.work branches) branches = ((r.drain branches).toList, []) := by
  generalize h : r.work branches = n
  induction n generalizing branches with
  | zero =>
    cases branches with
    | nil => simp [run, drain]
    | cons b below =>
      rw [work_pass] at h
      omega
  | succ n ih =>
    cases branches with
    | nil => simp [work] at h
    | cons b below =>
      have left : r.work (r.pass (b :: below)).2 = n := by
        rw [work_pass] at h
        omega
      rw [run, ih _ left, toList_drain_pass r (b :: below)]

theorem pass_append (b : Branch σ β) (above below : List (Branch σ β)) :
    r.pass (b :: above ++ below) =
      ((r.pass (b :: above)).1, (r.pass (b :: above)).2 ++ below) := by
  simp only [List.cons_append, pass_cons]
  split
  case isTrue => rfl
  case isFalse => split <;> simp

-- Whatever lies below on the stack waits until everything above it is done.
theorem toList_drain_append (r : Repetition σ α β) (above below : List (Branch σ β)) :
    (r.drain (above ++ below)).toList = (r.drain above).toList ++ (r.drain below).toList := by
  generalize h : r.work above = n
  induction n generalizing above with
  | zero =>
    cases above with
    | nil => simp [drain]
    | cons b above =>
      rw [work_pass] at h
      omega
  | succ n ih =>
    cases above with
    | nil => simp [work] at h
    | cons b above =>
      have left : r.work (r.pass (b :: above)).2 = n := by
        rw [work_pass] at h
        omega
      rw [toList_drain_pass, pass_append, ih _ left, toList_drain_pass r (b :: above),
        List.append_assoc]

def yields (r : Repetition σ α β) (b : Branch σ β) : List (Parsed σ β) :=
  (r.drain [b]).toList

theorem toList_drain (r : Repetition σ α β) (branches : List (Branch σ β)) :
    (r.drain branches).toList = branches.flatMap r.yields := by
  induction branches with
  | nil => simp [drain]
  | cons b below ih => rw [← List.singleton_append, toList_drain_append, ih]; rfl

theorem yields_full {b : Branch σ β} (full : r.max = some b.count) : r.yields b = [b.parsed] := by
  rw [yields, toList_drain_pass]
  simp [pass_cons, full, drain]

theorem yields_final {b : Branch σ β} (full : r.max ≠ some b.count) (final : r.children b = []) :
    r.yields b = if r.min ≤ b.count then [b.parsed] else [] := by
  rw [yields, toList_drain_pass]
  simp [pass_cons, full, final, drain]

theorem yields_extended {b : Branch σ β} (full : r.max ≠ some b.count)
    (extended : r.children b ≠ []) : r.yields b = (r.children b).flatMap r.yields := by
  have ⟨child, others, eq⟩ := List.exists_cons_of_ne_nil extended
  rw [yields, toList_drain_pass, ← toList_drain]
  simp [pass_cons, full, eq]

-- A branch is full, or nothing extends it, or else it yields what the branches that extend it yield.
-- These have less input left.
@[elab_as_elim]
theorem branch_induction (r : Repetition σ α β) {motive : Branch σ β → Prop}
    (full : ∀ b, r.max = some b.count → motive b)
    (final : ∀ b, r.max ≠ some b.count → r.children b = [] → motive b)
    (extended : ∀ b, r.max ≠ some b.count → r.children b ≠ [] →
      (∀ child ∈ r.children b, motive child) → motive b)
    (b : Branch σ β) : motive b := by
  induction h : b.size using Nat.strongRecOn generalizing b with
  | ind size ih =>
    by_cases isFull : r.max = some b.count
    case pos => exact full b isFull
    case neg =>
      by_cases isFinal : r.children b = []
      case pos => exact final b isFull isFinal
      case neg =>
        refine extended b isFull isFinal fun child grown => ?_
        exact ih child.size (h ▸ children_size_lt grown) child rfl

theorem yields_induction {motive : Branch σ β → Prop} {b : Branch σ β} {x : Parsed σ β}
    (start : motive b) (step : ∀ b child, motive b → child ∈ r.children b → motive child)
    (mem : x ∈ r.yields b) : ∃ last, motive last ∧ r.Finished last ∧ x = last.parsed := by
  induction b using branch_induction r with
  | full b full =>
    rw [yields_full full, List.mem_singleton] at mem
    exact ⟨b, start, ⟨.inl full, .inl full⟩, mem⟩
  | final b full final =>
    rw [yields_final full final, List.mem_ite_nil_right, List.mem_singleton] at mem
    exact ⟨b, start, ⟨.inr mem.1, .inr final⟩, mem.2⟩
  | extended b full extended ih =>
    rw [yields_extended full extended] at mem
    have ⟨child, grown, mem⟩ := List.mem_flatMap.mp mem
    exact ih child grown (step b child start grown) mem

def extensions (r : Repetition σ α β) (c : Cursor σ) (acc : β) : List (Parsed σ β) :=
  (r.item.parses c).filterMap fun s =>
    if c.offset < s.tail.offset then (r.fold.apply acc s.value).map (⟨·, s.tail⟩) else none

theorem remaining_lt_iff (inside : r.item.StaysInside) {c : Cursor σ} (valid : c.Valid)
    {s : Parsed σ α} (mem : s ∈ r.item.parses c) :
    s.tail.remaining < c.remaining ↔ c.offset < s.tail.offset := by
  have ⟨tail, source⟩ := inside c valid s mem
  have := tail.offset_le
  simp only [Cursor.remaining, source] at *
  omega

theorem mem_extensions_iff {c : Cursor σ} {acc : β} {e : Parsed σ β} :
    e ∈ r.extensions c acc ↔
      ∃ s ∈ r.item.parses c, c.offset < s.tail.offset ∧
        ∃ next, r.fold.apply acc s.value = some next ∧ ⟨next, s.tail⟩ = e := by
  simp [extensions]

theorem extensions_valid (inside : r.item.StaysInside) {c : Cursor σ} (valid : c.Valid) {acc : β}
    {e : Parsed σ β} (mem : e ∈ r.extensions c acc) : e.tail.Valid := by
  have ⟨s, mem, _, _, _, eq⟩ := mem_extensions_iff.mp mem
  exact eq ▸ (inside c valid s mem).1

theorem extensions_remaining_lt (inside : r.item.StaysInside) {c : Cursor σ} (valid : c.Valid)
    {acc : β} {e : Parsed σ β} (mem : e ∈ r.extensions c acc) :
    e.tail.remaining < c.remaining := by
  have ⟨s, mem, further, _, _, eq⟩ := mem_extensions_iff.mp mem
  exact eq ▸ (remaining_lt_iff inside valid mem).mpr further

-- What the repetition yields at a cursor with `n` items folded up, without a stack.
def outcomes (r : Repetition σ α β) (inside : r.item.StaysInside) (c : Cursor σ) (valid : c.Valid)
    (acc : β) (n : Nat) : List (Parsed σ β) :=
  if r.max = some n then [⟨acc, c⟩]
  else if r.extensions c acc = [] then if r.min ≤ n then [⟨acc, c⟩] else []
  else (r.extensions c acc).attach.flatMap fun e =>
    r.outcomes inside e.1.tail (extensions_valid inside valid e.2) e.1.value (n + 1)
termination_by c.remaining
decreasing_by exact extensions_remaining_lt inside valid e.2

theorem children_eq_extensions (inside : r.item.StaysInside) {c : Cursor σ} (valid : c.Valid)
    (acc : β) (n : Nat) :
    r.children ⟨c, acc, n⟩ = (r.extensions c acc).map fun e => ⟨e.tail, e.value, n + 1⟩ := by
  rw [children_eq, extensions, List.map_filterMap]
  refine List.filterMap_congr fun s mem => ?_
  simp only [remaining_lt_iff inside valid mem]
  split
  case isTrue => cases r.fold.apply acc s.value <;> rfl
  case isFalse => rfl

theorem yields_eq_outcomes (inside : r.item.StaysInside) {c : Cursor σ} (valid : c.Valid) (acc : β)
    (n : Nat) : r.yields ⟨c, acc, n⟩ = r.outcomes inside c valid acc n := by
  induction h : c.remaining using Nat.strongRecOn generalizing c acc n with
  | ind size ih =>
    have children := children_eq_extensions inside valid acc n
    rw [outcomes]
    split
    case isTrue full => exact yields_full full
    case isFalse full =>
      split
      case isTrue final =>
        rw [final, List.map_nil] at children
        exact yields_final full children
      case isFalse extended =>
        have grown : r.children ⟨c, acc, n⟩ ≠ [] := by simpa [children] using extended
        rw [yields_extended full grown, children, List.flatMap_map]
        conv_lhs => rw [← List.attach_map_subtype_val (r.extensions c acc), List.flatMap_map]
        refine List.flatMap_congr fun e _ => ?_
        have less := extensions_remaining_lt inside valid e.2
        exact ih _ (h ▸ less) _ e.1.value (n + 1) rfl

end Repetition

namespace Parser

variable {σ : Type u} {α β : Type v}

inductive Reads (p : Parser σ α) : Cursor σ → List (Parsed σ α) → Cursor σ → Prop
  | nil (c : Cursor σ) : Reads p c [] c
  | cons {c t : Cursor σ} {s : Parsed σ α} {steps : List (Parsed σ α)} (mem : s ∈ p.parses c)
      (others : Reads p s.tail steps t) : Reads p c (s :: steps) t

theorem Reads.snoc {p : Parser σ α} {c t : Cursor σ} {s : Parsed σ α} {steps : List (Parsed σ α)}
    (h : Reads p c steps t) (mem : s ∈ p.parses t) : Reads p c (steps ++ [s]) s.tail := by
  induction h with
  | nil => exact .cons mem (.nil _)
  | cons first _ ih => exact .cons first (ih mem)

theorem reads_of_mem_cons {p : Parser σ α} {min : Nat} {seed : List α} {c : Cursor σ}
    {x : Parsed σ (List α)}
    (mem : x ∈ (Repetition.parser ⟨p, .accepting fun acc a => a :: acc, min, none⟩ seed).parses c) :
    ∃ steps, Reads p c steps x.tail ∧ x.value = (steps.map (·.value)).reverse ++ seed := by
  have ⟨last, read, _, eq⟩ := Repetition.yields_induction
    (motive := fun b =>
      ∃ steps, Reads p c steps b.cursor ∧ b.acc = (steps.map (·.value)).reverse ++ seed)
    ⟨[], .nil c, rfl⟩ ?step mem
  · exact eq ▸ read
  case step =>
    intro b child ⟨steps, reads, acc⟩ grown
    have ⟨s, mem, _, next, applied, eq⟩ := Repetition.mem_children_iff.mp grown
    rw [← eq]
    refine ⟨steps ++ [s], reads.snoc mem, ?_⟩
    rw [← Option.some.inj applied, acc]
    simp [Repetition.Branch.extend]

theorem reads_of_mem_atLeast {p : Parser σ α} {min : Nat} {c : Cursor σ} {x : Parsed σ (List α)}
    (mem : x ∈ (p.atLeast min).parses c) :
    ∃ steps, Reads p c steps x.tail ∧ x.value = steps.map (·.value) := by
  rw [atLeast, parses_map] at mem
  have ⟨y, mem, eq⟩ := List.mem_map.mp mem
  have ⟨steps, reads, value⟩ := reads_of_mem_cons mem
  rw [← eq]
  exact ⟨steps, reads, by simp [value]⟩

theorem reads_of_mem_separatedBy {p : Parser σ α} {separator : Parser σ β} {c : Cursor σ}
    {x : Parsed σ (List α)} (mem : x ∈ (p.separatedBy separator).parses c) :
    ∃ first ∈ p.parses c, ∃ steps, Reads (separator *> p) first.tail steps x.tail ∧
      x.value = first.value :: steps.map (·.value) := by
  rw [separatedBy, parses_map, separated, parses_bind] at mem
  have ⟨y, mem, eq⟩ := List.mem_map.mp mem
  have ⟨first, read, mem⟩ := List.mem_flatMap.mp mem
  have ⟨steps, reads, value⟩ := reads_of_mem_cons mem
  rw [← eq]
  exact ⟨first, read, steps, reads, by simp [value]⟩

-- The loop over the stack ends, and it yields the outcomes of the recursive account in their order.
theorem repeated_eq_outcomes (p : Parser σ α) (inside : p.StaysInside) (min : Nat)
    (max : Option Nat) (seed : β) (f : β → α → Option β) (c : Cursor σ) (valid : c.Valid) :
    let r : Repetition σ α β := ⟨p, .rejecting f, min, max⟩
    (p.repeated min max seed f).parses c = r.outcomes inside c valid seed 0 ∧
      ∃ n, r.run n [⟨c, seed, 0⟩] = (r.outcomes inside c valid seed 0, []) := by
  intro r
  have eq : r.yields ⟨c, seed, 0⟩ = r.outcomes inside c valid seed 0 :=
    Repetition.yields_eq_outcomes inside valid seed 0
  refine ⟨eq, r.work [⟨c, seed, 0⟩], ?_⟩
  rw [r.run_work, ← eq]
  rfl

def oneOrTwo : Parser Unit String :=
  (text "a").append (text "aa")

theorem oneOrTwo_staysInside : oneOrTwo.StaysInside := by
  intro c valid s mem
  simp only [oneOrTwo, parses_append, parses_text, List.mem_append, List.mem_ite_nil_right,
    List.mem_singleton] at mem
  cases mem
  case inl mem => exact mem.2 ▸ ⟨valid.drop _, rfl⟩
  case inr mem => exact mem.2 ▸ ⟨valid.drop _, rfl⟩

def upToTwo (n : Nat) (piece : String) : Option Nat :=
  if n + piece.length ≤ 2 then some (n + piece.length) else none

theorem repeated_eq_outcomes_oneOrTwo :
    let c : Cursor Unit := .start "aaa" ()
    let r : Repetition Unit String Nat := ⟨oneOrTwo, .rejecting upToTwo, 2, none⟩
    (oneOrTwo.repeated 2 none 0 upToTwo).parses c = [⟨2, c.drop 2⟩] ∧
      r.outcomes oneOrTwo_staysInside c (Cursor.start_valid "aaa" ()) 0 0 = [⟨2, c.drop 2⟩] ∧
      ∃ n, r.run n [⟨c, 0, 0⟩] = ([⟨2, c.drop 2⟩], []) := by
  intro c r
  have ⟨eq, n, run⟩ := repeated_eq_outcomes oneOrTwo oneOrTwo_staysInside 2 none 0 upToTwo c
    (Cursor.start_valid "aaa" ())
  have parses : (oneOrTwo.repeated 2 none 0 upToTwo).parses c = [⟨2, c.drop 2⟩] := by
    decide +kernel
  have outcomes := eq.symm.trans parses
  exact ⟨parses, outcomes, n, outcomes ▸ run⟩

end Parser

end ExprTree
