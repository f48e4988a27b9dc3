import ExprTree.Proofs.Builder.Typing
import ExprTree.Proofs.Grammar.Nodes

namespace ExprTree

open Builder.Standard

theorem Builder.standard_preserves :
    Builder.standard.Preserves Expr.WellTyped fun v => v.ty.HasValues where
  var _ hv := Expr.wellTyped_iff.mpr ⟨hv, List.forall_mem_nil _⟩
  literal := literal_wellTyped
  defaultValue _ _ := defaultValue_wellTyped
  typeOf _ _ := typeOf_wellTyped
  unary _ _ _ := unary_wellTyped
  binary _ _ _ _ := binary_wellTyped
  conditional _ _ _ _ := conditional_wellTyped
  member _ _ _ := member_wellTyped
  staticMember _ _ _ := staticMember_wellTyped
  call _ _ _ _ := call_wellTyped
  staticCall _ _ _ _ := staticCall_wellTyped
  invoke _ _ _ := invoke_wellTyped
  index _ _ _ := index_wellTyped
  newArray _ _ _ := newArray_wellTyped
  lambda _ _ _ _ := lambda_wellTyped
  block _ _ _ := block_wellTyped
  declare _ _ _ := declare_hasValues
  assign _ _ _ := assign_wellTyped

-- A scope as a host makes it: with the standard builder, and with symbols that this builder has
-- declared.
structure Scope.Hosted (s : Scope) : Prop where
  builder : s.builder = .standard
  symbols : ∀ entry ∈ s.symbols.entries, ∃ name t, Builder.standard.declare name t = .ok entry.2

namespace Scope.Hosted

theorem new (resolver : Resolver) : (Scope.new resolver .standard).Hosted where
  builder := rfl
  symbols := by
    rw [AvlMap.entries_eq_toList]
    exact List.forall_mem_nil _

theorem withSymbol {s : Scope} (h : s.Hosted) {name : String} {t : Ty} {v : Symbol}
    (declared : Builder.standard.declare name t = .ok v) : (s.withSymbol v).Hosted where
  builder := h.builder
  symbols entry mem := by
    cases AvlMap.mem_entries_replace mem with
    | inl eq => exact ⟨name, t, eq ▸ declared⟩
    | inr mem => exact h.symbols entry mem

theorem holds {s : Scope} (h : s.Hosted) : s.Holds .standard fun v => v.ty.HasValues where
  builder := h.builder
  symbols entry mem := by
    have ⟨_, _, declared⟩ := h.symbols entry mem
    exact declare_hasValues declared

end Scope.Hosted

-- In every tree that a text has, every node satisfies its typing rule.
theorem parse_typed {source : String} {scope : Scope} (host : scope.Hosted) {tree : Expr}
    (h : parseExpression source scope = .ok tree ∨ parseStatement source scope = .ok tree) :
    ∀ node ∈ tree.nodes, node.Typed :=
  parse_preserves Builder.standard_preserves host.holds h

theorem parse_typed_locals :
    let scope := (Scope.new Registry.system.resolve .standard).withSymbol ⟨"s", .string⟩
    let source := "\x7b long n = s.Length << 2; n++; s = s + n; \x7d"
    scope.Hosted ∧
      ∃ tree, parseStatement source scope = .ok tree ∧ ∀ node ∈ tree.nodes, node.Typed := by
  intro scope source
  have declared : Builder.standard.declare "s" .string = .ok ⟨"s", .string⟩ := by decide
  have host : scope.Hosted := .withSymbol (.new _) declared
  have parsed : (parseStatement source scope).toOption.isSome := by
    decide +kernel
  have ⟨tree, eq⟩ := Option.isSome_iff_exists.mp parsed
  have parsed := ok_of_toOption eq
  exact ⟨host, tree, parsed, parse_typed host (.inr parsed)⟩

end ExprTree
