import Mathlib.Data.List.Induction
import Mathlib.Logic.Relation
import ExprTree.Proofs.Parser.Halts
import ExprTree.Proofs.Parser.Safety
import ExprTree.Proofs.Parser.Unambiguous

namespace ExprTree

open Relation (ReflTransGen)

universe u v w

variable {σ : Type u}

namespace Parser

variable {α β : Type v} {p : Parser σ α} {q : Parser σ β}

theorem staysInside_iff :
    p.StaysInside ↔ ∀ source, p.Keeps (fun c => c.Valid ∧ c.source = source) fun _ => True where
  mp h _ c hc r mem :=
    have ⟨valid, same⟩ := h c hc.1 r mem
    ⟨trivial, valid, same.trans hc.2⟩
  mpr h c valid r mem := (h c.source c ⟨valid, rfl⟩ r mem).2

theorem StaysInside.pair (hp : p.StaysInside) (hq : q.StaysInside) : (p.pair q).StaysInside :=
  staysInside_iff.mpr fun source =>
    ((staysInside_iff.mp hp source).pair (staysInside_iff.mp hq source)).mono fun _ _ => trivial

structure Determined (p : Parser σ α) : Prop where
  inside : p.StaysInside
  single : ∀ c : Cursor σ, c.Valid → (p.parses c).length ≤ 1

namespace Determined

theorem parses_eq (h : p.Determined) {c : Cursor σ} (valid : c.Valid) {r : Parsed σ α}
    (mem : r ∈ p.parses c) : p.parses c = [r] := by
  have single := h.single c valid
  match eq : p.parses c with
  | [] => simp [eq] at mem
  | [s] =>
    rw [eq, List.mem_singleton] at mem
    rw [mem]
  | _ :: _ :: _ => simp [eq] at single

theorem pair (hp : p.Determined) (hq : q.Determined) : (p.pair q).Determined where
  inside := hp.inside.pair hq.inside
  single c valid := by
    rw [parses_pair]
    refine length_flatMap_le_one (hp.single c valid) fun r mem => ?_
    rw [List.length_map]
    exact hq.single r.tail (hp.inside c valid r mem).1

end Determined

theorem Built.staysInside {σ α : Type} {p : Parser σ α} (h : p.Built) : p.StaysInside :=
  fun c valid r mem =>
    have onward := h.forward c valid r mem
    ⟨onward.valid, onward.source⟩

theorem Built.determined {σ α : Type} {p : Parser σ α} (h : p.Built) (single : p.Unambiguous) :
    p.Determined :=
  ⟨h.staysInside, fun c _ => single c⟩

end Parser

namespace Repetition

variable {α : Type v} {β : Type w} {r : Repetition σ α β}

def Extends (r : Repetition σ α β) (x y : Parsed σ β) : Prop :=
  y ∈ r.extensions x.tail x.value

-- Where the item is read in one way, the loop is a run that ends where nothing extends it.
theorem exists_run (item : r.item.Determined) (unlimited : r.max = none) (free : r.min = 0)
    {x : Parsed σ β} (valid : x.tail.Valid) (n : Nat) :
    ∃ last, ReflTransGen r.Extends x last ∧ (∀ next, ¬r.Extends last next) ∧
      r.yields ⟨x.tail, x.value, n⟩ = [last] := by
  induction size : x.tail.remaining using Nat.strongRecOn generalizing x n with
  | ind left ih =>
    have children := children_eq_extensions item.inside valid x.value n
    have single : (r.extensions x.tail x.value).length ≤ 1 :=
      length_filterMap_le_one (item.single x.tail valid)
    match extensions : r.extensions x.tail x.value with
    | [] =>
      rw [extensions, List.map_nil] at children
      refine ⟨x, .refl, fun next step => ?_, ?_⟩
      · rw [Extends, extensions] at step
        exact List.not_mem_nil step
      · rw [yields_final (by simp [unlimited]) children, if_pos (by simp [free])]
        rfl
    | [y] =>
      rw [extensions, List.map_singleton] at children
      have step : r.Extends x y := by
        rw [Extends, extensions]
        exact List.mem_singleton.mpr rfl
      have less := extensions_remaining_lt item.inside valid step
      have ⟨last, run, final, yields⟩ :=
        ih _ (size ▸ less) (extensions_valid item.inside valid step) (n + 1) rfl
      refine ⟨last, .head step run, final, ?_⟩
      rw [yields_extended (by simp [unlimited]) (by simp [children]), children,
        List.flatMap_singleton, yields]
    | _ :: _ :: _ => simp [extensions] at single

end Repetition

namespace Parser

variable {α : Type v} {operand : Parser σ α} {operator : Parser σ (α → α → Option α)}
  {c : Cursor σ}

inductive Joins (operand : Parser σ α) (operator : Parser σ (α → α → Option α)) (c : Cursor σ) :
    Link σ α → Prop
  | intro {f : Parsed σ (α → α → Option α)} {x : Parsed σ α} (opens : f ∈ operator.parses c)
      (closes : x ∈ operand.parses f.tail) (further : c.offset < x.tail.offset) :
      Joins operand operator c ⟨f.value, x.value, x.tail⟩

theorem mem_pair_iff {s : Parsed σ ((α → α → Option α) × α)} :
    s ∈ (operator.pair operand).parses c ↔
      ∃ f ∈ operator.parses c, ∃ x ∈ operand.parses f.tail, ⟨(f.value, x.value), x.tail⟩ = s := by
  simp [parses_pair]

def digit : Parser Unit Nat :=
  (fun a => a.toNat - '0'.toNat) <$> satisfy Char.isDigit

def minus : Parser Unit (Nat → Nat → Option Nat) :=
  (fun _ a b => if b ≤ a then some (a - b) else none) <$> character '-'

theorem digit_determined : digit.Determined :=
  Built.determined (.map (.satisfy _) _) ((satisfy_unambiguous _).map _)

theorem minus_determined : minus.Determined :=
  Built.determined (.map (.character _) _) ((satisfy_unambiguous _).map _)

section Left

-- A value and the cursor behind it go on to what the next operator makes of the value and of the
-- operand behind the operator, and to the cursor behind that operand.
def LeftStep (operand : Parser σ α) (operator : Parser σ (α → α → Option α)) (x y : Parsed σ α) :
    Prop :=
  ∃ link, Joins operand operator x.tail link ∧
    link.apply x.value link.operand = some y.value ∧ y.tail = link.tail

abbrev leftLinks (operand : Parser σ α) (operator : Parser σ (α → α → Option α)) :
    Repetition σ ((α → α → Option α) × α) α :=
  ⟨operator.pair operand, .rejecting fun acc link => link.1 acc link.2, 0, none⟩

theorem extends_leftLinks :
    (leftLinks operand operator).Extends = LeftStep operand operator := by
  funext x y
  rw [Repetition.Extends, eq_iff_iff, Repetition.mem_extensions_iff]
  constructor
  case mp =>
    intro ⟨s, mem, further, next, applied, eq⟩
    obtain ⟨f, opens, z, closes, rfl⟩ := mem_pair_iff.mp mem
    exact ⟨_, .intro opens closes further, eq ▸ applied, eq ▸ rfl⟩
  case mpr =>
    rintro ⟨_, ⟨opens, closes, further⟩, applied, tail⟩
    exact ⟨_, mem_pair_iff.mpr ⟨_, opens, _, closes, rfl⟩, further, _, applied,
      congrArg (Parsed.mk y.value) tail.symm⟩

-- A chain from the left goes on as long as there is an operator with an operand behind it, and the
-- operator accepts what there is so far. It ends behind the last operand that was accepted.
theorem chainLeft_maximal (hoperand : operand.Determined) (hoperator : operator.Determined)
    (valid : c.Valid) :
    (operand.parses c = [] → (operand.chainLeft operator).parses c = []) ∧
    ∀ first ∈ operand.parses c, ∃ last,
      ReflTransGen (LeftStep operand operator) first last ∧
      (∀ next, ¬LeftStep operand operator last next) ∧
      (last.tail = first.tail ∨ ∃ before, LeftStep operand operator before last) ∧
      (operand.chainLeft operator).parses c = [last] := by
  refine ⟨fun none => by rw [chainLeft, parses_bind, none, List.flatMap_nil], fun first mem => ?_⟩
  have inside := (hoperand.inside c valid first mem).1
  have ⟨last, run, final, yields⟩ := Repetition.exists_run (r := leftLinks operand operator)
    (hoperator.pair hoperand) rfl rfl inside 0
  rw [extends_leftLinks] at run final
  refine ⟨last, run, final, ?_, ?_⟩
  · exact run.cases_tail.imp (congrArg Parsed.tail) fun ⟨before, _, step⟩ => ⟨before, step⟩
  · rw [chainLeft, parses_bind, hoperand.parses_eq valid mem, List.flatMap_singleton]
    exact yields

theorem chainLeft_maximal_refused :
    let c := Cursor.start "9-2-3-5-1" ()
    ∃ first ∈ digit.parses c, ∃ last, ReflTransGen (LeftStep digit minus) first last ∧
      (∀ next, ¬LeftStep digit minus last next) ∧ last = ⟨4, c.drop 5⟩ ∧
      (digit.chainLeft minus).parses c = [last] := by
  intro c
  have first : digit.parses c = [⟨9, c.drop 1⟩] := by decide
  have parses : (digit.chainLeft minus).parses c = [⟨4, c.drop 5⟩] := by decide +kernel
  have ⟨_, chain⟩ := chainLeft_maximal digit_determined minus_determined
    (Cursor.start_valid "9-2-3-5-1" ())
  have ⟨last, run, final, _, eq⟩ := chain ⟨9, c.drop 1⟩ (first ▸ List.mem_singleton.mpr rfl)
  have same := List.singleton_inj.mp (eq.symm.trans parses)
  exact ⟨_, first ▸ List.mem_singleton.mpr rfl, last, run, final, same, eq⟩

end Left

section Right

inductive Collects (operand : Parser σ α) (operator : Parser σ (α → α → Option α)) :
    Cursor σ → List (Link σ α) → Prop
  | nil {c : Cursor σ} (ends : ∀ link, ¬Joins operand operator c link) :
      Collects operand operator c []
  | cons {c : Cursor σ} {link : Link σ α} {others : List (Link σ α)}
      (first : Joins operand operator c link) (more : Collects operand operator link.tail others) :
      Collects operand operator c (link :: others)

theorem mem_link_iff {s : Parsed σ (Link σ α)} :
    s ∈ (Link.parser operand operator).parses c ↔
      ∃ f ∈ operator.parses c, ∃ x ∈ operand.parses f.tail,
        ⟨⟨f.value, x.value, x.tail⟩, x.tail⟩ = s := by
  simp only [parses_link, parses_pair, List.map_flatMap, List.map_map, List.mem_flatMap,
    List.mem_map, Function.comp_apply]

theorem extends_links_iff {x y : Parsed σ (List (Link σ α))} :
    (links operand operator).Extends x y ↔
      ∃ link, Joins operand operator x.tail link ∧ ⟨link :: x.value, link.tail⟩ = y := by
  rw [Repetition.Extends, Repetition.mem_extensions_iff]
  constructor
  case mp =>
    intro ⟨s, mem, further, _, applied, eq⟩
    obtain ⟨f, opens, z, closes, rfl⟩ := mem_link_iff.mp mem
    obtain rfl := Option.some.inj applied
    exact ⟨_, .intro opens closes further, eq⟩
  case mpr =>
    rintro ⟨_, ⟨opens, closes, further⟩, rfl⟩
    exact ⟨_, mem_link_iff.mpr ⟨_, opens, _, closes, rfl⟩, further, _, rfl, rfl⟩

theorem collects_of_run {x last : Parsed σ (List (Link σ α))}
    (run : ReflTransGen (links operand operator).Extends x last)
    (final : ∀ next, ¬(links operand operator).Extends last next) :
    ∃ found, Collects operand operator x.tail found ∧ last.value = found.reverse ++ x.value := by
  induction run using ReflTransGen.head_induction_on with
  | refl =>
    exact ⟨[], .nil fun link joins => final _ (extends_links_iff.mpr ⟨link, joins, rfl⟩), rfl⟩
  | head step _ ih =>
    obtain ⟨link, joins, rfl⟩ := extends_links_iff.mp step
    have ⟨found, collects, value⟩ := ih
    exact ⟨link :: found, .cons joins collects, by simp [value]⟩

theorem StaysInside.link (hoperand : operand.StaysInside) (hoperator : operator.StaysInside) :
    (Link.parser operand operator).StaysInside := by
  intro c valid r mem
  rw [parses_link] at mem
  have ⟨s, mem, eq⟩ := List.mem_map.mp mem
  exact eq ▸ hoperator.pair hoperand c valid s mem

theorem Determined.link (hoperand : operand.Determined) (hoperator : operator.Determined) :
    (Link.parser operand operator).Determined where
  inside := hoperand.inside.link hoperator.inside
  single c valid := by
    rw [parses_link, List.length_map]
    exact (hoperator.pair hoperand).single c valid

section Fold

variable {head : Parsed σ α} {found : List (Link σ α)}

def foldLinks (x : α) : List (Link σ α) → Option α
  | [] => some x
  | link :: others => (foldLinks link.operand others).bind (link.apply x)

theorem foldRight_reverse (x : α) (last : Link σ α) (found : List (Link σ α)) :
    Link.foldRight x last.apply last.operand found.reverse = foldLinks x (found ++ [last]) := by
  induction found generalizing x with
  | nil => rfl
  | cons link others ih => rw [List.reverse_cons, foldRight_append, ih]; rfl

-- The first `k` links fold to the value of a parse that ends behind the last of them, and no more
-- links than these fold.
structure FoldsUpTo (head : Parsed σ α) (found : List (Link σ α)) (k : Nat) (r : Parsed σ α) :
    Prop where
  value   : foldLinks head.value (found.take k) = some r.value
  tail    : (head.tail :: found.map Link.tail)[k]? = some r.tail
  longest : ∀ j, k < j → j ≤ found.length → foldLinks head.value (found.take j) = none

theorem FoldsUpTo.le {k : Nat} {r : Parsed σ α} (h : FoldsUpTo head found k r) :
    k ≤ found.length := by
  have ⟨inside, _⟩ := List.getElem?_eq_some_iff.mp h.tail
  simpa [Nat.lt_succ_iff] using inside

theorem FoldsUpTo.snoc {k : Nat} {r : Parsed σ α} {last : Link σ α} (h : FoldsUpTo head found k r)
    (refused : foldLinks head.value (found ++ [last]) = none) :
    FoldsUpTo head (found ++ [last]) k r where
  value := by rw [List.take_append_of_le_length h.le, h.value]
  tail := by
    rw [List.map_append, ← List.cons_append, List.getElem?_append_left, h.tail]
    simpa [Nat.lt_succ_iff] using h.le
  longest j more bound := by
    rw [List.length_append, List.length_singleton] at bound
    by_cases whole : j = found.length + 1
    case pos => rw [whole, List.take_of_length_le (by simp), refused]
    case neg =>
      have inside : j ≤ found.length := by omega
      rw [List.take_append_of_le_length inside, h.longest j more inside]

theorem exists_foldsUpTo (head : Parsed σ α) (found : List (Link σ α)) :
    ∃ k, FoldsUpTo head found k (Link.cutBack head found.reverse) := by
  induction found using List.reverseRecOn with
  | nil => exact ⟨0, rfl, rfl, fun j more bound => absurd more (Nat.not_lt.mpr bound)⟩
  | append_singleton found last ih =>
    rw [List.reverse_concat, Link.cutBack, foldRight_reverse]
    cases fold : foldLinks head.value (found ++ [last]) with
    | none => exact ih.imp fun _ folds => folds.snoc fold
    | some a =>
      refine ⟨(found ++ [last]).length, ?_, ?_, fun j more bound => ?_⟩
      · rw [List.take_length, fold]
      · simp
      · exact absurd more (Nat.not_lt.mpr bound)

end Fold

-- A chain from the right is read as far as there are links, whether their operators accept their
-- operands or not. Then it is cut back to the longest part that can be folded.
theorem chainRight_longest (hoperand : operand.Determined) (hoperator : operator.Determined)
    (valid : c.Valid) :
    (operand.parses c = [] → (operand.chainRight operator).parses c = []) ∧
    ∀ first ∈ operand.parses c, ∃ found k r,
      Collects operand operator first.tail found ∧ FoldsUpTo first found k r ∧
      (operand.chainRight operator).parses c = [r] := by
  refine ⟨fun none => by rw [parses_chainRight, none, List.flatMap_nil], fun first mem => ?_⟩
  have inside := (hoperand.inside c valid first mem).1
  have ⟨last, run, final, yields⟩ := Repetition.exists_run (r := links operand operator)
    (x := ⟨[], first.tail⟩) (hoperand.link hoperator) rfl rfl inside 0
  have ⟨found, collects, value⟩ := collects_of_run run final
  have ⟨k, folds⟩ := exists_foldsUpTo first found
  refine ⟨found, k, _, collects, folds, ?_⟩
  rw [parses_chainRight, hoperand.parses_eq valid mem, List.flatMap_singleton, yields,
    List.map_singleton, value, List.append_nil]

theorem chainRight_longest_cutTwice :
    let c := Cursor.start "1-3-2-1-4" ()
    ∃ first ∈ digit.parses c, ∃ found k r, Collects digit minus first.tail found ∧
      FoldsUpTo first found k r ∧ r = ⟨0, c.drop 5⟩ ∧ (digit.chainRight minus).parses c = [r] := by
  intro c
  have first : digit.parses c = [⟨1, c.drop 1⟩] := by decide
  have parses : (digit.chainRight minus).parses c = [⟨0, c.drop 5⟩] := by decide +kernel
  have ⟨_, chain⟩ := chainRight_longest digit_determined minus_determined
    (Cursor.start_valid "1-3-2-1-4" ())
  have ⟨found, k, r, collects, folds, eq⟩ :=
    chain ⟨1, c.drop 1⟩ (first ▸ List.mem_singleton.mpr rfl)
  have same := List.singleton_inj.mp (eq.symm.trans parses)
  exact ⟨_, first ▸ List.mem_singleton.mpr rfl, found, k, r, collects, folds, same, eq⟩

section Recursion

def joined (operator : Parser σ (α → α → Option α)) (C : Cursor σ → List (Parsed σ α))
    (x : Parsed σ α) : List (Parsed σ α) :=
  (operator.parses x.tail).flatMap fun f =>
    (C f.tail).filterMap fun y => (f.value x.value y.value).map (⟨·, y.tail⟩)

-- The recursive account of a chain from the right, as an equation: an operand is joined with the
-- chain behind an operator, and stands alone only where that has no parse at all.
def AssociatesRight (operand : Parser σ α) (operator : Parser σ (α → α → Option α))
    (C : Cursor σ → List (Parsed σ α)) : Prop :=
  ∀ c, c.Valid → C c = (operand.parses c).flatMap fun x =>
    if joined operator C x = [] then [x] else joined operator C x

-- Operators that accept all operands, and that move on together with the operand behind them. There
-- may be many ways to read either of them.
structure Accepting (operand : Parser σ α) (operator : Parser σ (α → α → Option α)) : Prop where
  operands  : operand.StaysInside
  operators : operator.StaysInside
  advances  : ∀ c : Cursor σ, c.Valid → ∀ f ∈ operator.parses c, ∀ x ∈ operand.parses f.tail,
    c.offset < x.tail.offset
  accepts   : ∀ c : Cursor σ, c.Valid → ∀ f ∈ operator.parses c, ∀ a b, (f.value a b).isSome

def chainsFrom (operand : Parser σ α) (operator : Parser σ (α → α → Option α)) (x : Parsed σ α) :
    List (Parsed σ α) :=
  ((links operand operator).yields ⟨x.tail, [], 0⟩).map fun found => Link.cutBack x found.value

def Link.Accepts (link : Link σ α) : Prop :=
  ∀ a b, (link.apply a b).isSome

namespace Accepting

theorem unique (h : Accepting operand operator) {C C' : Cursor σ → List (Parsed σ α)}
    (hC : AssociatesRight operand operator C) (hC' : AssociatesRight operand operator C')
    (valid : c.Valid) : C c = C' c := by
  have behind {x : Parsed σ α} (inside : x.tail.Valid) :
      joined operator C x = joined operator C' x := by
    -- What is joined with an operand is yielded behind it, and behind that less input is left.
    induction size : x.tail.remaining using Nat.strongRecOn generalizing x with
    | ind n ih =>
      refine List.flatMap_congr fun f opens => ?_
      have ⟨hf, source⟩ := h.operators x.tail inside f opens
      have same : C f.tail = C' f.tail := by
        rw [hC f.tail hf, hC' f.tail hf]
        refine List.flatMap_congr fun y closes => ?_
        have ⟨hy, source'⟩ := h.operands f.tail hf y closes
        have further := h.advances x.tail inside f opens y closes
        have less : y.tail.remaining < n := by
          have := hy.offset_le
          simp only [← size, Cursor.remaining, source', source] at *
          omega
        rw [ih y.tail.remaining less hy rfl]
      rw [same]
  rw [hC c valid, hC' c valid]
  refine List.flatMap_congr fun x mem => ?_
  rw [behind (h.operands c valid x mem).1]

theorem children_eq (h : Accepting operand operator) {x : Parsed σ α} (inside : x.tail.Valid) :
    (links operand operator).children ⟨x.tail, [], 0⟩ =
      (operator.parses x.tail).flatMap fun f => (operand.parses f.tail).map fun y =>
        ⟨y.tail, [⟨f.value, y.value, y.tail⟩], 1⟩ := by
  have item := h.operands.link h.operators
  rw [Repetition.children_eq_extensions item inside, Repetition.extensions]
  have all : ∀ s ∈ (Link.parser operand operator).parses x.tail,
      (if x.tail.offset < s.tail.offset
        then ((Fold.accepting fun acc link => link :: acc).apply [] s.value).map
          (Parsed.mk · s.tail) else none) = some ⟨[s.value], s.tail⟩ := by
    intro s mem
    obtain ⟨f, opens, y, closes, rfl⟩ := mem_link_iff.mp mem
    exact if_pos (h.advances x.tail inside f opens y closes)
  rw [List.filterMap_congr all]
  simp [parses_link, parses_pair, List.map_flatMap, Function.comp_def]

theorem exists_folds (head : Parsed σ α) {found : List (Link σ α)}
    (accept : ∀ link ∈ found, link.Accepts) : ∃ a t, Folds head a t found := by
  induction found using List.reverseRecOn generalizing head with
  | nil => exact ⟨head.value, head.tail, rfl⟩
  | append_singleton found first ih =>
    have ⟨others, last⟩ := List.forall_mem_append.mp accept
    have ⟨a, t, folds⟩ := ih ⟨first.operand, first.tail⟩ others
    have ⟨e, apply⟩ := Option.isSome_iff_exists.mp
      (List.forall_mem_singleton.mp last head.value a)
    exact ⟨e, t, folds.append apply head.tail⟩

theorem collected (h : Accepting operand operator) (valid : c.Valid)
    {found : Parsed σ (List (Link σ α))}
    (mem : found ∈ (links operand operator).yields ⟨c, [], 0⟩) :
    ∀ link ∈ found.value, link.Accepts := by
  have item : (Link.parser operand operator).Keeps Cursor.Valid Link.Accepts := by
    intro c valid r mem
    have tail := (h.operands.link h.operators c valid r mem).1
    obtain ⟨f, opens, y, closes, rfl⟩ := mem_link_iff.mp mem
    exact ⟨h.accepts c valid f opens, tail⟩
  have keeps := Keeps.manyFold (Q := fun found : List (Link σ α) => ∀ link ∈ found, link.Accepts)
    (f := fun acc link => link :: acc) (List.forall_mem_nil _) item
    fun _ _ hacc hlink => List.forall_mem_cons.mpr ⟨hlink, hacc⟩
  exact (keeps c valid found mem).1

theorem chainsFrom_link (h : Accepting operand operator) (x : Parsed σ α)
    (f : α → α → Option α) {y : Parsed σ α} (inside : y.tail.Valid)
    (accepts : ∀ a b, (f a b).isSome) :
    ((links operand operator).yields ⟨y.tail, [⟨f, y.value, y.tail⟩], 1⟩).map
        (fun found => Link.cutBack x found.value) =
      (chainsFrom operand operator y).filterMap fun z =>
        (f x.value z.value).map (⟨·, z.tail⟩) := by
  have behind := Repetition.yields_map (Link.parser operand operator)
    (.accepting fun acc link => link :: acc) (.accepting fun acc link => link :: acc)
    (g := (· ++ [⟨f, y.value, y.tail⟩])) (fun _ _ => rfl) ⟨y.tail, [], 0⟩ 1
  rw [List.nil_append] at behind
  rw [behind, List.map_map, chainsFrom, List.filterMap_map, ← List.filterMap_eq_map]
  refine List.filterMap_congr fun found mem => ?_
  have ⟨a, t, folds⟩ := exists_folds y (h.collected inside mem)
  have ⟨e, apply⟩ := Option.isSome_iff_exists.mp (accepts x.value a)
  have whole := folds.append apply x.tail
  simp [folds.cutBack, whole.cutBack, apply]

theorem joined_eq (h : Accepting operand operator) {x : Parsed σ α} (inside : x.tail.Valid) :
    joined operator (operand.chainRight operator).parses x =
      (((links operand operator).children ⟨x.tail, [], 0⟩).flatMap
        (links operand operator).yields).map fun found => Link.cutBack x found.value := by
  rw [h.children_eq inside, joined, List.flatMap_assoc, List.map_flatMap]
  refine List.flatMap_congr fun f opens => ?_
  have hf := (h.operators x.tail inside f opens).1
  rw [parses_chainRight, List.filterMap_flatMap, List.flatMap_map, List.map_flatMap]
  refine List.flatMap_congr fun y closes => ?_
  have hy := (h.operands f.tail hf y closes).1
  exact (h.chainsFrom_link x f.value hy (h.accepts x.tail inside f opens)).symm

theorem chainsFrom_eq (h : Accepting operand operator) {x : Parsed σ α} (inside : x.tail.Valid) :
    chainsFrom operand operator x =
      if joined operator (operand.chainRight operator).parses x = [] then [x]
      else joined operator (operand.chainRight operator).parses x := by
  have joins := h.joined_eq inside
  by_cases final : (links operand operator).children ⟨x.tail, [], 0⟩ = []
  case pos =>
    rw [final, List.flatMap_nil, List.map_nil] at joins
    rw [if_pos joins, chainsFrom, Repetition.yields_final (by simp) final, if_pos (Nat.zero_le 0)]
    rfl
  case neg =>
    rw [← Repetition.yields_extended (by simp) final] at joins
    have some := Repetition.yields_ne_nil (r := links operand operator) rfl ⟨x.tail, [], 0⟩
    rw [if_neg (by simpa [joins] using some), joins, chainsFrom]

end Accepting

-- Where all operators accept all operands, a chain from the right yields what the recursive account
-- says, in its order, and nothing else.
theorem chainRight_recursive (h : Accepting operand operator) :
    AssociatesRight operand operator (operand.chainRight operator).parses ∧
    ∀ C, AssociatesRight operand operator C →
      ∀ c, c.Valid → (operand.chainRight operator).parses c = C c := by
  have solves : AssociatesRight operand operator (operand.chainRight operator).parses := by
    intro c valid
    rw [parses_chainRight]
    refine List.flatMap_congr fun x mem => ?_
    exact h.chainsFrom_eq (h.operands c valid x mem).1
  exact ⟨solves, fun C hC c valid => h.unique solves hC valid⟩

def plus : Parser Unit (Nat → Nat → Option Nat) :=
  allOf [(fun _ a b => some (10 * a + b)) <$> text "+", (fun _ a b => some (a + 2 * b)) <$> text "+"]

theorem mem_plus {c : Cursor Unit} {f : Parsed Unit (Nat → Nat → Option Nat)}
    (mem : f ∈ plus.parses c) : c.offset < f.tail.offset ∧ ∀ a b, (f.value a b).isSome := by
  simp only [plus, allOf, parses_append, parses_map, parses_fail, List.append_nil,
    List.mem_append, List.mem_map] at mem
  rcases mem with ⟨r, mem, rfl⟩ | ⟨r, mem, rfl⟩
  all_goals
    have moved : c.offset < (c.skip "+".utf8ByteSize).offset := Nat.lt_add_of_pos_right (by decide)
    exact ⟨tail_of_mem_text mem ▸ moved, fun _ _ => rfl⟩

theorem oneOrTwo_accepting : Accepting (String.length <$> oneOrTwo) plus := by
  have operand : (String.length <$> oneOrTwo).Built := .map (.append (.text _) (.text _)) _
  have operator : plus.Built := .allOf fun p mem => by
    simp only [List.mem_cons, List.not_mem_nil, or_false] at mem
    rcases mem with rfl | rfl
    all_goals exact .map (.text _) _
  refine ⟨operand.staysInside, operator.staysInside, fun c valid f opens x closes => ?_,
    fun c _ f opens => (mem_plus opens).2⟩
  have inside := (operator.staysInside c valid f opens).1
  exact Nat.lt_of_lt_of_le (mem_plus opens).1 (operand.forward f.tail inside x closes).le

theorem chainRight_recursive_branching :
    let operand := String.length <$> oneOrTwo
    let c := Cursor.start "aa+a+a" ()
    let outcomes := [⟨1, c.drop 1⟩, ⟨31, c.drop 6⟩, ⟨23, c.drop 6⟩, ⟨24, c.drop 6⟩, ⟨8, c.drop 6⟩]
    AssociatesRight operand plus (operand.chainRight plus).parses ∧
      (operand.chainRight plus).parses c = outcomes ∧
      ∀ C, AssociatesRight operand plus C → C c = outcomes := by
  intro operand c outcomes
  have ⟨solves, only⟩ := chainRight_recursive oneOrTwo_accepting
  have parses : (operand.chainRight plus).parses c = outcomes := by decide +kernel
  exact ⟨solves, parses, fun C hC => (only C hC c (Cursor.start_valid _ _)).symm.trans parses⟩

end Recursion

end Right

end Parser

end ExprTree
