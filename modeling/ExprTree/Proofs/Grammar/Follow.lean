import ExprTree.Expr.Printer
import ExprTree.Proofs.Grammar.Literals
import ExprTree.Proofs.Grammar.Rebuilding

namespace ExprTree.Grammar

open ExprTree.Parser

variable {I : Scope → Prop} {text rest : List Char} {j k : Nat}

section Operators

def operatorTokens : List OperatorToken :=
  tiers.flatten ++ [⟨.coalesce, ['=']⟩]

def tier (k : Nat) : List OperatorToken :=
  tiers.getD (11 - k) []

theorem mem_operatorTokens (op : BinaryOp) : ∃ t ∈ operatorTokens, t.op = op := by
  cases op <;> decide

theorem mem_tier {op : BinaryOp} (h : op ≠ .coalesce) : ∃ t ∈ tier op.precedence, t.op = op := by
  cases op <;> first | decide | exact absurd rfl h

theorem coalesce_listed : (⟨.coalesce, ['=']⟩ : OperatorToken) ∈ operatorTokens :=
  List.mem_append_right _ (List.mem_singleton_self _)

theorem precedence_bounds {op : BinaryOp} (h : op ≠ .coalesce) :
    2 ≤ op.precedence ∧ op.precedence ≤ 11 := by
  cases op <;> first | decide | exact absurd rfl h

theorem precedence_eq (low : 2 ≤ k) (high : k ≤ 11) : ∀ t ∈ tier k, t.op.precedence = k := by
  have table : ∀ k ∈ List.range' 2 10, ∀ t ∈ tier k, t.op.precedence = k := by decide
  exact table k (List.mem_range'_1.mpr (by omega))

theorem tier_subset (k : Nat) : tier k ⊆ operatorTokens := by
  intro t mem
  rw [tier, List.getD_eq_getElem?_getD] at mem
  cases found : tiers[11 - k]? with
  | none => simp [found] at mem
  | some ts =>
    rw [found, Option.getD_some] at mem
    exact List.mem_append_left _ (List.mem_flatten.mpr ⟨ts, List.mem_of_getElem? found, mem⟩)

-- An operator is not read off a text: it does not stand there, or the next character rules it out.
def OperatorToken.Misses (t : OperatorToken) (text : List Char) : Prop :=
  t.op.symbol.toList.length ≤ text.length ∧
    (t.op.symbol.toList <+: text → ∃ a ∈ t.notBefore, t.op.symbol.toList ++ [a] <+: text)

instance (t : OperatorToken) (text : List Char) : Decidable (t.Misses text) :=
  inferInstanceAs (Decidable (_ ∧ (_ → ∃ a ∈ t.notBefore, t.op.symbol.toList ++ [a] <+: text)))

theorem not_prefix_append {s : List Char} (short : s.length ≤ text.length) (h : ¬s <+: text)
    (rest : List Char) : ¬s <+: text ++ rest :=
  fun found => h (List.prefix_of_prefix_length_le found (List.prefix_append text rest) short)

theorem OperatorToken.rule_refuses {t : OperatorToken} (h : ¬t.op.symbol.toList <+: rest) :
    t.rule.Refuses I rest :=
  (operator_refuses h _).filterMapState _

theorem OperatorToken.Misses.rule_refuses {t : OperatorToken} (h : t.Misses text)
    (rest : List Char) : t.rule.Refuses I (text ++ rest) := by
  by_cases found : t.op.symbol.toList <+: text
  case pos =>
    have ⟨a, mem, more, eq⟩ := h.2 found
    rw [← eq, List.append_assoc, List.append_assoc]
    exact (operator_refuses_longer _ mem _).filterMapState _
  case neg => exact OperatorToken.rule_refuses (not_prefix_append h.1 found rest)

theorem misses_operator : ∀ t ∈ operatorTokens, ∀ t' ∈ operatorTokens, t.op ≠ t'.op →
    t.Misses (t'.op.symbol.toList ++ [' ']) := by
  decide

theorem misses_choice : ∀ t ∈ operatorTokens, t.Misses ['?', ' '] := by
  decide

section Takes

variable (standard : ∀ s, I s → s.builder = .standard)

include standard

theorem OperatorToken.rule_takes {t : OperatorToken} (listed : t ∈ operatorTokens)
    (significant : Significant rest) :
    t.rule.Takes I (t.op.symbol.toList ++ [' '])
      (fun left right => (Builder.Standard.binary t.op left right).toOption) rest := by
  have spaced : ∀ t ∈ operatorTokens, ' ' ∉ t.notBefore := by decide
  refine (operator_takes _ .space significant ?_).filterMapState fun s hs => ?_
  · rintro _ ⟨⟩
    exact spaced t listed
  · rw [standard s hs]
    rfl

theorem tierOperator_takes {op : BinaryOp} (other : op ≠ .coalesce)
    (significant : Significant rest) :
    (tierOperator (tier op.precedence)).Takes I (op.symbol.toList ++ [' '])
      (fun left right => (Builder.Standard.binary op left right).toOption) rest := by
  obtain ⟨t, mem, rfl⟩ := mem_tier other
  have listed := tier_subset _ mem
  refine (t.rule_takes standard listed significant).oneOf_only (List.mem_map_of_mem mem) ?_
  intro p mem'
  have ⟨t', mem', eq⟩ := List.mem_map.mp mem'
  by_cases same : t'.op = t.op
  case pos =>
    have next : ∀ t ∈ operatorTokens, ∀ t' ∈ operatorTokens, t'.op = t.op →
        t'.notBefore = t.notBefore := by
      decide
    left
    rw [← eq, OperatorToken.rule, same, next t listed t' (tier_subset _ mem') same]
    rfl
  case neg =>
    rw [← eq]
    exact .inr ((misses_operator t' (tier_subset _ mem') t listed same).rule_refuses rest)

end Takes

end Operators

section Follow

def closers : List Char :=
  [')', ']', ',', ':']

-- A text behind an expression, and the precedence that an operator in front of it needs at least to
-- be part of the expression.
inductive Follows : Nat → List Char → Prop
  | done : Follows 0 []
  | closer {a : Char} (h : a ∈ closers) (rest : List Char) : Follows 0 (a :: rest)
  | question (rest : List Char) : Follows 1 (['?', ' '] ++ rest)
  | operator (op : BinaryOp) (rest : List Char) :
      Follows (op.precedence + 1) (op.symbol.toList ++ [' '] ++ rest)

def Stops (k : Nat) (rest : List Char) : Prop :=
  ∃ j ≤ k, Follows j rest

theorem stops_closer {a : Char} (h : a ∈ closers) (rest : List Char) : Stops 0 (a :: rest) :=
  ⟨0, Nat.le_refl 0, .closer h rest⟩

theorem Stops.follows (h : Stops 0 rest) : Follows 0 rest := by
  have ⟨j, le, follows⟩ := h
  obtain rfl := Nat.le_zero.mp le
  exact follows

theorem Stops.mono (h : Stops j rest) (le : j ≤ k) : Stops k rest :=
  h.imp fun _ ⟨le', follows⟩ => ⟨Nat.le_trans le' le, follows⟩

def Opening (s : List Char) : Prop :=
  ∃ a ∈ s.head?, a ∉ closers

instance (s : List Char) : Decidable (Opening s) :=
  inferInstanceAs (Decidable (∃ a ∈ s.head?, a ∉ closers))

theorem Opening.absent {s : List Char} (h : Opening s) (closed : Follows 0 rest) :
    ¬s <+: rest := by
  have ⟨a, head, other⟩ := h
  have ⟨cs, eq⟩ := List.head?_eq_some_iff.mp head
  rw [eq]
  cases closed with
  | done => simp
  | closer mem rest => exact fun found => other ((List.cons_prefix_cons.mp found).1 ▸ mem)

-- A text that nothing behind an expression starts with.
def Foreign (s : List Char) : Prop :=
  Opening s ∧ s.length ≤ 2 ∧ ¬s <+: ['?', ' '] ∧
    ∀ t ∈ operatorTokens, ¬s <+: t.op.symbol.toList ++ [' ']

instance (s : List Char) : Decidable (Foreign s) :=
  inferInstanceAs (Decidable (Opening s ∧ _ ∧ _ ∧ _))

theorem Follows.absent (h : Follows j rest) {s : List Char} (foreign : Foreign s) :
    ¬s <+: rest := by
  have ⟨opening, short, other, others⟩ := foreign
  cases h with
  | done => exact opening.absent .done
  | closer mem rest => exact opening.absent (.closer mem rest)
  | question rest => exact not_prefix_append short other rest
  | operator op rest =>
    have long : ∀ t ∈ operatorTokens, 2 ≤ (t.op.symbol.toList ++ [' ']).length := by decide
    obtain ⟨t, listed, rfl⟩ := mem_operatorTokens op
    exact not_prefix_append (Nat.le_trans short (long t listed)) (others t listed) rest

def followers : List Char :=
  closers ++ '?' :: operatorTokens.flatMap fun t => t.op.symbol.toList.take 1

theorem Follows.head (h : Follows j rest) : ∀ a ∈ rest.head?, a ∈ followers := by
  intro a mem
  cases h with
  | done => simp at mem
  | closer h rest =>
    obtain rfl := Option.some.inj mem
    exact List.mem_append_left _ h
  | question rest =>
    obtain rfl := Option.some.inj mem
    decide
  | operator op rest =>
    obtain ⟨t, listed, rfl⟩ := mem_operatorTokens op
    have nonempty : ∀ t ∈ operatorTokens, t.op.symbol.toList ≠ [] := by decide
    have ⟨b, cs, eq⟩ := List.exists_cons_of_ne_nil (nonempty t listed)
    refine List.mem_append_right _ (List.mem_cons_of_mem _ (List.mem_flatMap.mpr ⟨t, listed, ?_⟩))
    rw [eq] at mem ⊢
    obtain rfl := Option.some.inj mem
    exact List.mem_singleton_self _

theorem Follows.ends (h : Follows j rest) : Ends rest := by
  have table : ∀ a ∈ followers, Text.isBlank a = false ∧ isIdentifierPart a = false ∧ a ≠ '.' := by
    decide
  refine ⟨⟨fun a mem => (table a (h.head a mem)).1, ?_, ?_⟩, ?_, ?_⟩
  · exact h.absent (by decide)
  · exact h.absent (by decide)
  · exact fun a mem => (table a (h.head a mem)).2.1
  · rintro a ⟨more, eq⟩
    exact absurd rfl (table '.' (h.head '.' (by rw [← eq]; rfl))).2.2

theorem Stops.rule_refuses (h : Stops k rest) {t : OperatorToken} (listed : t ∈ operatorTokens)
    (bound : k ≤ t.op.precedence) : t.rule.Refuses I rest := by
  have opening : ∀ t ∈ operatorTokens, Opening t.op.symbol.toList := by decide
  have ⟨j, le, follows⟩ := h
  cases follows with
  | done => exact OperatorToken.rule_refuses ((opening t listed).absent .done)
  | closer mem rest =>
    exact OperatorToken.rule_refuses ((opening t listed).absent (.closer mem rest))
  | question rest => exact (misses_choice t listed).rule_refuses rest
  | operator op rest =>
    obtain ⟨t', listed', rfl⟩ := mem_operatorTokens op
    refine (misses_operator t listed t' listed' fun same => ?_).rule_refuses rest
    rw [same] at bound
    omega

theorem Stops.tierOperator_refuses (h : Stops k rest) (low : 2 ≤ k) (high : k ≤ 11) :
    (tierOperator (tier k)).Refuses I rest := by
  refine oneOf_refuses fun p mem => ?_
  obtain ⟨t, listed, rfl⟩ := List.mem_map.mp mem
  exact h.rule_refuses (tier_subset k listed) (Nat.le_of_eq (precedence_eq low high t listed).symm)

theorem Stops.coalesceOperator_refuses (h : Stops 1 rest) : coalesceOperator.Refuses I rest :=
  h.rule_refuses coalesce_listed (Nat.le_refl 1)

end Follow

end ExprTree.Grammar
