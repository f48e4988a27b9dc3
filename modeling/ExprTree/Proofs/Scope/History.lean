import ExprTree.Builder.Standard
import ExprTree.Proofs.Scope.Lookup

namespace ExprTree

-- What makes a scope out of another one.
inductive Change where
  | withSymbol (v : Symbol)
  | declare (v : Symbol)
  | enterBlock
  | enterLambda (params : List Symbol) (result : Option Ty)
  | withExpected (expected : Option Ty)

def Change.binds : Change → List Symbol
  | withSymbol v | declare v => [v]
  | enterLambda params _ => params
  | enterBlock | withExpected _ => []

def Scope.change (s : Scope) : Change → Option Scope
  | .withSymbol v => some (s.withSymbol v)
  | .declare v => s.declare v
  | .enterBlock => some s.enterBlock
  | .enterLambda params result => s.enterLambda params result
  | .withExpected expected => some (s.withExpected expected)

abbrev History := List Change

namespace History

def bound (h : History) : List Symbol :=
  h.flatMap fun c => c.binds.reverse

def lookup (h : History) (name : String) : Option Symbol :=
  h.bound.find? (·.name = name)

-- What has been declared since the last entry, the oldest first. The parameters of a lambda are
-- declared as it is entered.
def locals : History → List Symbol
  | [] | .enterBlock :: _ => []
  | .enterLambda params _ :: _ => params
  | .declare v :: earlier => locals earlier ++ [v]
  | .withSymbol _ :: earlier | .withExpected _ :: earlier => locals earlier

-- The type that has been set last. A block sets none, and a lambda sets the type of its result.
def expected : History → Option Ty
  | [] | .enterBlock :: _ => none
  | .enterLambda _ result :: _ => result
  | .withExpected expected :: _ => expected
  | .withSymbol _ :: earlier | .declare _ :: earlier => expected earlier

@[simp]
theorem lookup_cons (h : History) (c : Change) (name : String) :
    lookup (c :: h) name = (c.binds.reverse.find? (·.name = name)).or (h.lookup name) := by
  rw [lookup, bound, List.flatMap_cons, List.find?_append]
  rfl

def scope? (resolver : Resolver) (builder : Builder) : History → Option Scope
  | [] => some (.new resolver builder)
  | c :: earlier => do (← scope? resolver builder earlier).change c

end History

namespace Scope

variable {resolver : Resolver} {builder : Builder} {h : History} {s t : Scope} {v : Symbol}
  {ds params : List Symbol}

theorem declare_eq_none_iff : s.declare v = none ↔ v.name ∈ s.declared.map (·.name) := by
  simp [declare, declared, Stack.inPushOrder]

theorem exists_declares_iff (distinct : (s.declared.map (·.name)).Nodup) :
    (∃ t, s.Declares ds t) ↔ ((s.declared ++ ds).map (·.name)).Nodup := by
  constructor
  case mp =>
    intro ⟨t, declares⟩
    rw [← declares.declared_eq]
    exact declares.distinct distinct
  case mpr =>
    intro nodup
    induction ds generalizing s with
    | nil => exact ⟨s, .nil s⟩
    | cons d ds ih =>
      have fresh : s.declare d ≠ none := by
        rw [Ne, declare_eq_none_iff]
        intro mem
        rw [List.map_append, List.map_cons, List.nodup_append] at nodup
        exact nodup.2.2 d.name mem d.name List.mem_cons_self rfl
      have ⟨u, declared⟩ := Option.ne_none_iff_exists'.mp fresh
      have single : s.Declares [d] u := .cons declared (.nil u)
      have grown := single.declared_eq
      rw [← List.singleton_append, ← List.append_assoc, ← grown] at nodup
      have ⟨t, others⟩ := ih (single.distinct distinct) nodup
      exact ⟨t, .cons declared others⟩

theorem enterLambda_eq_none_iff {result : Option Ty} :
    s.enterLambda params result = none ↔ ¬(params.map (·.name)).Nodup := by
  have entered : (∃ t, s.enterBlock.Declares params t) ↔ (params.map (·.name)).Nodup :=
    exists_declares_iff List.nodup_nil
  rw [enterLambda, Option.map_eq_none_iff, Option.eq_none_iff_forall_ne_some, ← entered, not_exists]
  rfl

structure Answers (s : Scope) (h : History) : Prop where
  keyed    : s.Keyed
  lookup   : ∀ name, s.lookup name = h.lookup name
  locals   : s.declared = h.locals
  distinct : (s.declared.map (·.name)).Nodup
  expected : s.expected = h.expected

namespace Answers

theorem new (resolver : Resolver) (builder : Builder) : (Scope.new resolver builder).Answers [] :=
  ⟨.new resolver builder, fun _ => rfl, rfl, List.nodup_nil, rfl⟩

theorem withSymbol (a : s.Answers h) (v : Symbol) : (s.withSymbol v).Answers (.withSymbol v :: h) where
  keyed := a.keyed.withSymbol v
  lookup name := by
    rw [a.keyed.lookup_withSymbol, a.lookup]
    by_cases eq : v.name = name
    case pos => simp [Change.binds, eq]
    case neg => simp [Change.binds, eq, Ne.symm eq]
  locals := a.locals
  distinct := a.distinct
  expected := a.expected

theorem declare (a : s.Answers h) (declared : s.declare v = some t) :
    t.Answers (.declare v :: h) := by
  have single : s.Declares [v] t := .cons declared (.nil t)
  refine ⟨a.keyed.declare declared, fun name => ?_, ?_, single.distinct a.distinct, ?_⟩
  · rw [single.lookup_eq a.keyed, a.lookup, History.lookup_cons]
    rfl
  · rw [single.declared_eq, a.locals]
    rfl
  · rw [single.expected_eq, a.expected]
    rfl

theorem enterBlock (a : s.Answers h) : s.enterBlock.Answers (.enterBlock :: h) :=
  ⟨a.keyed.enterBlock, a.lookup, rfl, List.nodup_nil, rfl⟩

theorem enterLambda {result : Option Ty} (a : s.Answers h)
    (entered : s.enterLambda params result = some t) :
    t.Answers (.enterLambda params result :: h) := by
  obtain ⟨u, declares, rfl⟩ := enterLambda_eq entered
  have keyed := a.keyed.enterBlock
  refine ⟨(keyed.declares declares).withExpected result, fun name => ?_, ?_, ?_, rfl⟩
  · show u.lookup name = _
    rw [declares.lookup_eq keyed, History.lookup_cons, ← a.lookup]
    rfl
  · exact declares.declared_eq
  · exact declares.distinct List.nodup_nil

theorem withExpected (a : s.Answers h) (expected : Option Ty) :
    (s.withExpected expected).Answers (.withExpected expected :: h) :=
  ⟨a.keyed.withExpected expected, a.lookup, a.locals, a.distinct, rfl⟩

theorem change {c : Change} (a : s.Answers h) (changed : s.change c = some t) :
    t.Answers (c :: h) := by
  cases c with
  | withSymbol v => exact Option.some.inj changed ▸ a.withSymbol v
  | declare v => exact a.declare changed
  | enterBlock => exact Option.some.inj changed ▸ a.enterBlock
  | enterLambda params result => exact a.enterLambda changed
  | withExpected expected => exact Option.some.inj changed ▸ a.withExpected expected

end Answers

theorem answers_of_scope? (made : h.scope? resolver builder = some s) : s.Answers h := by
  induction h generalizing s with
  | nil => exact Option.some.inj made ▸ .new resolver builder
  | cons c earlier ih =>
    have ⟨before, made, changed⟩ := Option.bind_eq_some_iff.mp made
    exact (ih made).change changed

-- Whatever has been done to a scope, names, locals and the expected type are what its history says
-- that they are, no two locals have one name, and a declaration or the entry of a lambda is refused
-- exactly if it would make two locals of one name.
theorem history_answers (made : h.scope? resolver builder = some s) :
    (∀ name, s.lookup name = h.lookup name) ∧
    s.declared = h.locals ∧ (h.locals.map (·.name)).Nodup ∧
    s.expected = h.expected ∧
    (∀ v, s.declare v = none ↔ v.name ∈ h.locals.map (·.name)) ∧
    (∀ params result, s.enterLambda params result = none ↔ ¬(params.map (·.name)).Nodup) := by
  have ⟨_, lookup, locals, distinct, expected⟩ := answers_of_scope? made
  rw [locals] at distinct
  refine ⟨lookup, locals, distinct, expected, fun v => ?_, fun _ _ => enterLambda_eq_none_iff⟩
  rw [declare_eq_none_iff, locals]

theorem history_answers_hidden :
    let outer : History := [.withSymbol ⟨"x", .string⟩, .declare ⟨"x", .int⟩]
    let inner : History :=
      .declare ⟨"y", .int⟩ :: .enterLambda [⟨"x", .bool⟩] (some .long) :: .withExpected none :: outer
    ∃ s t, outer.scope? Registry.system.resolve .standard = some s ∧
      inner.scope? Registry.system.resolve .standard = some t ∧
      (s.lookup "x" = some ⟨"x", .string⟩ ∧ s.declared = [⟨"x", .int⟩] ∧
        s.declare ⟨"x", .string⟩ = none) ∧
      t.lookup "x" = some ⟨"x", .bool⟩ ∧ t.declared = [⟨"x", .bool⟩, ⟨"y", .int⟩] ∧
        t.expected = some .long ∧ t.enterLambda [⟨"z", .int⟩, ⟨"z", .bool⟩] none = none := by
  intro outer inner
  have ⟨s, made⟩ : ∃ s, outer.scope? Registry.system.resolve .standard = some s :=
    Option.isSome_iff_exists.mp (by decide)
  have ⟨t, made'⟩ : ∃ t, inner.scope? Registry.system.resolve .standard = some t :=
    Option.isSome_iff_exists.mp (by decide)
  have ⟨lookup, locals, _, _, refused, _⟩ := history_answers made
  have ⟨lookup', locals', _, expected', _, entry'⟩ := history_answers made'
  refine ⟨s, t, made, made', ⟨?_, locals, ?_⟩, ?_, locals', expected', ?_⟩
  · rw [lookup]
    decide
  · rw [refused]
    decide
  · rw [lookup']
    decide
  · rw [entry']
    decide

end Scope

end ExprTree
