import ExprTree.Proofs.Builder.Shape
import ExprTree.Proofs.Expr.Binding
import ExprTree.Proofs.Grammar.Composition

namespace ExprTree

-- A builder that makes scoped trees of scoped trees, whatever names mean around them.
structure Builder.Lexical (b : Builder) : Prop where
  composes : ∀ outside, b.Composes (Expr.Scoped outside)
  literal  : ∀ outside value, (b.literal value).Scoped outside
  lambda   : ∀ outside expected params body e, (Binder.lambda params).Distinct →
    body.Scoped (fun name => admissible outside name [.lambda params]) →
    b.lambda expected params body = .ok e → e.Scoped outside
  block    : ∀ outside locals body e, (Binder.block locals).Distinct →
    (∀ e ∈ body, e.Scoped fun name => admissible outside name [.block locals]) →
    b.block locals body = .ok e → e.Scoped outside

namespace Builder.Standard

open List (Forall₂)
open ExprTree.Expr (Scoped scoped_iff scoped_of_children)

variable {outside : Surroundings} {value e : Expr}

theorem Coerced.scoped (h : Coerced value e) (hv : value.Scoped outside) : e.Scoped outside := by
  cases h with
  | same => exact hv
  | converted => exact scoped_of_children rfl nofun (List.forall_mem_singleton.mpr hv)

theorem coerced_scoped {values es : List Expr} (h : Forall₂ Coerced values es)
    (hvs : ∀ value ∈ values, value.Scoped outside) : ∀ e ∈ es, e.Scoped outside :=
  forall_of_coerced (fun _ _ => Coerced.scoped) h hvs

theorem literal_scoped (value : Literal) : (literal value).Scoped outside :=
  scoped_of_children rfl nofun nofun

theorem invoke_scoped {delegate : Expr} {args : List Expr} (hd : delegate.Scoped outside)
    (hargs : ∀ arg ∈ args, arg.Scoped outside) (h : invoke delegate args = .ok e) :
    e.Scoped outside := by
  obtain ⟨args', t, _, coerced, rfl⟩ := invoke_shape h
  exact scoped_of_children rfl nofun (List.forall_mem_cons.mpr ⟨hd, coerced_scoped coerced hargs⟩)

theorem composes (outside : Surroundings) : Builder.standard.Composes (Scoped outside) where
  defaultValue t e h := by
    obtain ⟨_, rfl⟩ := defaultValue_shape h
    exact scoped_of_children rfl nofun nofun
  typeOf t e h := by
    obtain ⟨_, rfl⟩ := typeOf_shape h
    exact literal_scoped _
  unary op operand e ho h := by
    obtain ⟨operand', coerced, rfl, _⟩ := unary_shape h
    exact scoped_of_children rfl nofun (List.forall_mem_singleton.mpr (coerced.scoped ho))
  binary op left right e hl hr h := by
    obtain ⟨left', right', t, _, coercedLeft, coercedRight, rfl⟩ := binary_shape h
    refine scoped_of_children rfl nofun (List.forall_mem_cons.mpr ⟨coercedLeft.scoped hl, ?_⟩)
    exact List.forall_mem_singleton.mpr (coercedRight.scoped hr)
  conditional condition yes no e hc hy hn h := by
    obtain ⟨condition', yes', no', _, _, ⟨coerced, coercedYes, coercedNo⟩, rfl⟩ :=
      conditional_shape h
    refine scoped_of_children rfl nofun (List.forall_mem_cons.mpr ⟨coerced.scoped hc, ?_⟩)
    exact List.forall_mem_cons.mpr
      ⟨coercedYes.scoped hy, List.forall_mem_singleton.mpr (coercedNo.scoped hn)⟩
  member target name e ht h := by
    obtain ⟨t, _, rfl⟩ := member_shape h
    exact scoped_of_children rfl nofun (List.forall_mem_singleton.mpr ht)
  staticMember owner name e h := by
    obtain ⟨t, _, rfl⟩ := staticMember_shape h
    exact scoped_of_children rfl nofun nofun
  call target name args e ht hargs h := by
    rcases call_shape h with invoked | ⟨args', t, _, coerced, rfl⟩
    · exact invoke_scoped ht hargs invoked
    · exact scoped_of_children rfl nofun
        (List.forall_mem_cons.mpr ⟨ht, coerced_scoped coerced hargs⟩)
  staticCall owner name args e hargs h := by
    obtain ⟨args', t, _, coerced, rfl⟩ := staticCall_shape h
    exact scoped_of_children rfl nofun (coerced_scoped coerced hargs)
  invoke delegate args e := invoke_scoped
  index target args e ht hargs h := by
    obtain ⟨args', t, _, _, coerced, rfl⟩ := index_shape h
    exact scoped_of_children rfl nofun
      (List.forall_mem_cons.mpr ⟨ht, coerced_scoped coerced hargs⟩)
  newArray element items e hitems h := by
    obtain ⟨items', _, _, coerced, rfl⟩ := newArray_shape h
    exact scoped_of_children rfl nofun (coerced_scoped coerced hitems)
  assign target value e ht hv h := by
    obtain ⟨value', _, _, coerced, rfl⟩ := assign_shape h
    refine scoped_of_children rfl nofun (List.forall_mem_cons.mpr ⟨ht, ?_⟩)
    exact List.forall_mem_singleton.mpr (coerced.scoped hv)

end Builder.Standard

open Builder.Standard in
theorem Builder.standard_lexical : Builder.standard.Lexical where
  composes := composes
  literal _ := literal_scoped
  lambda outside expected params body e distinct hbody h := by
    obtain ⟨body', t, coerced, rfl, _⟩ := lambda_shape h
    refine Expr.scoped_iff.mpr ⟨?_, nofun, List.forall_mem_singleton.mpr (coerced.scoped hbody)⟩
    rintro b ⟨⟩
    exact distinct
  block outside locals body e distinct hbody h := by
    rw [← Except.ok.inj h]
    refine Expr.scoped_iff.mpr ⟨?_, nofun, hbody⟩
    rintro b ⟨⟩
    exact distinct

end ExprTree
