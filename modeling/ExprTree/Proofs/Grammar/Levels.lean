import Mathlib.Tactic.IntervalCases
import ExprTree.Proofs.Grammar.Depth
import ExprTree.Proofs.Grammar.Follow

namespace ExprTree.Grammar

open ExprTree.Parser
open Nested (whole)

variable {I : Scope → Prop} {text t rest : List Char} {e : Expr} {k p : Nat}

section Refusals

def Punctuated (text : List Char) : Prop :=
  ∀ a ∈ text.head?, a ∈ '(' :: closers

theorem Follows.punctuated (h : Follows 0 rest) : Punctuated rest := by
  intro a mem
  cases h with
  | done => simp at mem
  | closer h rest =>
    obtain rfl := Option.some.inj mem
    exact List.mem_cons_of_mem _ h

namespace Punctuated

variable (h : Punctuated text)

include h

theorem head {P : Char → Prop} (table : ∀ a ∈ '(' :: closers, P a) : ∀ a ∈ text.head?, P a :=
  fun a mem => table a (h a mem)

theorem keyword_refuses {w : String} {y : Char} {zs : List Char} (hw : w.toList = y :: zs)
    (start : isIdentifierStart y) : (keyword w).Refuses I text := by
  have table : ∀ a ∈ '(' :: closers, isIdentifierStart a = false := by decide
  refine keyword_refuses_first hw fun mem => ?_
  rw [table y (h y mem)] at start
  simp at start

theorem identifier_refuses : identifier.Refuses I text :=
  Grammar.identifier_refuses (h.head (P := (isIdentifierStart · = false)) (by decide))

theorem constant_refuses : constant.Refuses I text := by
  refine (literal_refuses (literalWords_refuse ?_) ?_ ?_).filterMapState _
  · exact h.head (P := (· ∉ ['t', 'f', 'n'])) (by decide)
  · exact h.head (P := (·.isDigit = false)) (by decide)
  · exact h.head (P := (· ∉ ['.', '\x27', '\x22', '@'])) (by decide)

theorem variableUse_refuses : variableUse.Refuses I text :=
  h.identifier_refuses.filterMapState _

theorem staticAccess_refuses (nested : Nested) : (staticAccess nested).Refuses I text := by
  have words : ∀ p ∈ Primitive.all, ∃ y ∈ p.keyword.toList.head?, isIdentifierStart y := by
    decide
  have predefined : predefinedType.Refuses I text := by
    refine oneOf_refuses fun p mem => ?_
    obtain ⟨p, listed, rfl⟩ := List.mem_map.mp mem
    have ⟨y, head, start⟩ := words p listed
    have ⟨zs, eq⟩ := List.head?_eq_some_iff.mp head
    exact (h.keyword_refuses eq start).map _
  have path : path.Refuses I text := h.identifier_refuses.separatedBy _
  exact ((((predefined.seqLeft _).pair _).map _).orElse (path.map _)).pair _ |>.filterMapState _

theorem operands_refuse {operand : Rule Expr} (mem : operand ∈ [constant, variableUse,
    staticAccess whole, typeOf, defaultValue, newArray whole]) : operand.Refuses I text := by
  simp only [List.mem_cons, List.not_mem_nil, or_false] at mem
  rcases mem with rfl | rfl | rfl | rfl | rfl | rfl
  · exact h.constant_refuses
  · exact h.variableUse_refuses
  · exact h.staticAccess_refuses whole
  · exact ((h.keyword_refuses rfl (by decide)).seqRight _).filterMapState _
  · exact ((h.keyword_refuses rfl (by decide)).seqRight _).filterMapState _
  · exact (((h.keyword_refuses rfl (by decide)).seqRight _).filterMap _).bind

theorem primary_refuses (parens : (parenthesized whole).Refuses I text) :
    (primary whole).Refuses I text := by
  refine oneOf_refuses fun operand mem => ?_
  by_cases eq : operand = parenthesized whole
  case pos => exact eq ▸ parens
  case neg => exact h.operands_refuse (by simp_all)

end Punctuated

theorem binaryChain_refuses {operand : Rule Expr} (h : operand.Refuses I rest) :
    (binaryChain operand).Refuses I rest := by
  refine Refuses.chainRight ?_ _
  rw [tierOperators]
  generalize tiers = tiers
  induction tiers generalizing operand with
  | nil => exact h
  | cons tier tiers ih => exact ih (h.chainLeft _)

def leadingTokens : List (UnaryOp × List Char) :=
  [(.preIncrement, []), (.preDecrement, []), (.negate, ['=']), (.plus, ['=']), (.not, ['=']),
   (.complement, [])]

def leadingRule (t : UnaryOp × List Char) : Rule UnaryOp :=
  (fun _ => t.1) <$> operator t.1.symbol t.2

theorem leadingOperator_eq : leadingOperator = oneOf (leadingTokens.map leadingRule) := rfl

def leaders : List Char :=
  ['+', '-', '!', '~']

theorem leadingOperator_refuses (h : ∀ a ∈ rest.head?, a ∉ leaders) :
    leadingOperator.Refuses I rest := by
  have starts : ∀ t ∈ leadingTokens, ∃ a ∈ t.1.symbol.toList.head?, a ∈ leaders := by decide
  rw [leadingOperator_eq]
  refine oneOf_refuses fun p mem => ?_
  obtain ⟨t, listed, rfl⟩ := List.mem_map.mp mem
  have ⟨a, head, leads⟩ := starts t listed
  exact (operator_refuses (not_prefix_of_first ⟨a, head, fun mem => h a mem leads⟩) _).map _

theorem unaryOver_refuses (start : ∀ a ∈ rest.head?, a ∉ leaders)
    (operand : (primary whole).Refuses I rest) : (unaryOver whole).Refuses I rest :=
  ((leadingOperator_refuses start).pair _ |>.filterMapState _).orElse (operand.suffixed _)

theorem nonAssignmentOver_refuses (start : ∀ a ∈ rest.head?, a ∉ leaders)
    (operand : (primary whole).Refuses I rest) : (nonAssignmentOver whole).Refuses I rest :=
  (binaryChain_refuses (unaryOver_refuses start operand)).bind

theorem Punctuated.not_leader (h : Punctuated text) : ∀ a ∈ text.head?, a ∉ leaders :=
  h.head (by decide)

section Closed

variable (closed : Follows 0 rest)

include closed

theorem lambdaOver_refuses : (lambdaOver whole).Refuses I rest := by
  have start := closed.punctuated
  have opening : (symbol "(").Refuses I rest :=
    symbol_refuses (Opening.absent (by decide) closed)
  have explicit : explicitParameters.Refuses I rest := by
    unfold explicitParameters
    exact (opening.between _ _).filterMapState _
  have implicit : implicitParameters.Refuses I rest := by
    unfold implicitParameters
    exact ((start.identifier_refuses.map _).orElse (opening.between _ _)).filterMapState _
  exact ((explicit.orElse implicit).seqLeft _).bind

theorem expression_refuses : whole.expression.Refuses I rest := by
  intro c hc
  have start := closed.punctuated
  have parens : (parenthesized whole).Refuses I rest :=
    (symbol_refuses (Opening.absent (by decide) closed)).between _ _
  have condition := nonAssignmentOver_refuses start.not_leader (start.primary_refuses parens)
  have refuses : (expressionOver whole).Refuses I rest :=
    (condition.notFollowedBy _).orElse (lambdaOver_refuses closed)
  exact (parses_whole expressionOver_descends hc.valid).trans (refuses c hc)

end Closed

def suffixStarts : List String :=
  [".", "[", "(", "++", "--"]

theorem suffix_refuses (absent : ∀ s ∈ suffixStarts, ¬s.toList <+: rest) :
    (suffix whole).Refuses I rest := by
  have symbol {s : String} (listed : s ∈ suffixStarts) : (symbol s).Refuses I rest :=
    symbol_refuses (absent s listed)
  have arguments {left : String} (listed : left ∈ suffixStarts) (right : String) :
      (arguments whole left right).Refuses I rest := ((symbol listed).between _ _).map _
  have step {s : String} (listed : s ∈ suffixStarts) : (Grammar.operator s []).Refuses I rest :=
    operator_refuses (absent s listed) []
  have trailing : trailingOperator.Refuses I rest :=
    ((step (s := "++") (by decide)).map _).orElse ((step (s := "--") (by decide)).map _)
  refine oneOf_refuses fun p mem => ?_
  simp only [List.mem_cons, List.not_mem_nil, or_false] at mem
  rcases mem with rfl | rfl | rfl | rfl
  · exact (((symbol (by decide)).seqRight _).pair _).filterMapState _
  · exact (arguments (by decide) _).filterMapState _
  · exact (arguments (by decide) _).filterMapState _
  · exact trailing.filterMapState _

theorem Follows.suffix_refuses {j : Nat} (h : Follows j rest) : (suffix whole).Refuses I rest := by
  have foreign : ∀ s ∈ suffixStarts, Foreign s.toList := by decide
  exact Grammar.suffix_refuses fun s listed => h.absent (foreign s listed)

end Refusals

section Levels

def level (k : Nat) : Rule Expr :=
  if k = 0 then expressionOver whole
  else if k = 1 then binaryChain (unaryOver whole)
  else if k ≤ 12 then (tierOperators.take (12 - k)).foldl chainLeft (unaryOver whole)
  else (primary whole).suffixed (suffix whole)

abbrev tierLoop (k : Nat) : Repetition Scope ((Expr → Expr → Option Expr) × Expr) Expr :=
  ⟨(tierOperator (tier k)).pair (level (k + 1)), .rejecting fun acc link => link.1 acc link.2, 0,
    none⟩

abbrev suffixLoop : Repetition Scope (Expr → Option Expr) Expr :=
  ⟨suffix whole, .rejecting fun acc apply => apply acc, 0, none⟩

theorem level_tier (low : 2 ≤ k) (high : k ≤ 11) :
    level k = level (k + 1) >>= (tierLoop k).parser := by
  interval_cases k <;> rfl

end Levels

section Legible

-- The rule for a precedence reads the text with the gap behind it, up to where it ends.
def ReadAt (I : Scope → Prop) (k : Nat) (t : List Char) (e : Expr) : Prop :=
  ∀ gap rest, Gap gap → Stops k rest → (level k).Takes I (t ++ gap) e rest

def GrowsAt (I : Scope → Prop) (k : Nat) (t : List Char) (e : Expr) : Prop :=
  ∀ gap rest, Gap gap → Stops (k + 1) rest → (level k).Opens I (tierLoop k) (t ++ gap) e rest

def ChainsAt (I : Scope → Prop) (t : List Char) (e : Expr) : Prop :=
  ∀ gap rest, Gap gap → Stops 1 rest → Chains I (level 2) coalesceOperator (t ++ gap) e rest

def isMember : Expr → Bool
  | .member .. => true
  | _ => false

-- The same for an operand that may be applied to something. A name behind a point takes an argument
-- list to itself.
def AppliesAt (I : Scope → Prop) (t : List Char) (e : Expr) : Prop :=
  ∀ gap rest, Gap gap → Ends rest → (isMember e → '(' ∉ rest.head?) →
    (level 13).Opens I suffixLoop (t ++ gap) e rest

-- What is known about a text where its node is read by the rule for a precedence.
inductive Legible (I : Scope → Prop) : Nat → List Char → Expr → Prop
  | choice {t : List Char} {e : Expr} (h : ReadAt I 0 t e) : Legible I 0 t e
  | chain {t : List Char} {e : Expr} (h : ChainsAt I t e) : Legible I 1 t e
  | tier {k : Nat} {t : List Char} {e : Expr} (low : 2 ≤ k) (high : k ≤ 11) (h : GrowsAt I k t e) :
      Legible I k t e
  | unary {t : List Char} {e : Expr} (h : ReadAt I 12 t e) : Legible I 12 t e
  | primary {t : List Char} {e : Expr} (h : AppliesAt I t e) : Legible I 13 t e

theorem ReadAt.growsAt (low : 2 ≤ k) (high : k ≤ 11) (h : ReadAt I (k + 1) t e) :
    GrowsAt I k t e := by
  intro gap rest hg stops
  rw [level_tier low high]
  exact (h gap rest hg stops).opens _

theorem GrowsAt.readAt (low : 2 ≤ k) (high : k ≤ 11) (h : GrowsAt I k t e) : ReadAt I k t e :=
  fun gap rest hg stops => (h gap rest hg (stops.mono (Nat.le_succ k))).takes rfl rfl
    ((stops.tierOperator_refuses low high).pair _)

theorem ReadAt.chainsAt (h : ReadAt I 2 t e) : ChainsAt I t e :=
  fun gap rest hg stops =>
    (h gap rest hg (stops.mono (by decide))).chains stops.coalesceOperator_refuses

theorem ChainsAt.readAt (h : ChainsAt I t e) : ReadAt I 1 t e :=
  fun gap rest hg stops => (h gap rest hg stops).takes

theorem AppliesAt.readAt (h : AppliesAt I t e) : ReadAt I 13 t e := by
  intro gap rest hg ⟨j, _, follows⟩
  have other : '(' ∉ followers := by decide
  exact (h gap rest hg follows.ends fun _ mem => other (follows.head _ mem)).takes rfl rfl
    follows.suffix_refuses

theorem ReadAt.unary (start : ∀ a ∈ t.head?, a ∉ leaders) (nonempty : t ≠ [])
    (h : ReadAt I 13 t e) : ReadAt I 12 t e := by
  intro gap rest hg stops
  have leading : leadingOperator.Refuses I (t ++ gap ++ rest) := by
    refine leadingOperator_refuses ?_
    rwa [List.append_assoc, List.head?_append_of_ne_nil _ nonempty]
  exact ((leading.pair _).filterMapState _).orElse_takes (h gap rest hg (stops.mono (by decide)))

theorem readAt_of_conditional
    (h : ∀ gap rest, Gap gap → Stops 0 rest → (conditional whole).Takes I (t ++ gap) e rest) :
    ReadAt I 0 t e := by
  intro gap rest hg stops
  have arrow : (symbol "=>").Refuses I rest :=
    symbol_refuses (Opening.absent (by decide) stops.follows)
  exact ((h gap rest hg stops).notFollowedBy arrow).orElse_left _

theorem ReadAt.choice (h : ReadAt I 1 t e) : ReadAt I 0 t e := by
  refine readAt_of_conditional fun gap rest hg stops => ?_
  have asked : (operator "?" ['?']).Refuses I rest :=
    operator_refuses (Opening.absent (by decide) stops.follows) _
  exact (h gap rest hg (stops.mono (by decide))).bind_nil
    ((((asked.between _ _).pair _).filterMapState _).orElse_takes (pure_takes e rest))

theorem Legible.readAt (h : Legible I k t e) : ReadAt I k t e := by
  cases h with
  | choice h => exact h
  | chain h => exact h.readAt
  | tier low high h => exact h.readAt low high
  | unary h => exact h
  | primary h => exact h.readAt

theorem Legible.le (h : Legible I k t e) : k ≤ 13 := by
  cases h <;> omega

def OperandStart (a : Char) : Prop :=
  a.isDigit ∨ isIdentifierStart a ∨ a = '('

theorem OperandStart.not_leader {a : Char} (h : OperandStart a) : a ∉ leaders := by
  have table : ∀ a ∈ leaders, a.isDigit = false ∧ isIdentifierStart a = false ∧ a ≠ '(' := by
    decide
  intro mem
  have ⟨digit, start, open'⟩ := table a mem
  rcases h with h | h | h
  · simp [h] at digit
  · simp [h] at start
  · exact open' h

def NodeStart (p : Nat) (a : Char) : Prop :=
  OperandStart a ∨ p ≤ 12 ∧ a ∈ leaders

theorem NodeStart.significant {a : Char} (h : NodeStart p a) (rest : List Char) :
    Significant (a :: rest) := by
  have table : ∀ a ∈ '(' :: leaders, Text.isBlank a = false ∧ a ≠ '/' := by decide
  rcases h with (digit | start | eq) | ⟨_, leads⟩
  · have ⟨blank, slash⟩ := of_isDigit (P := fun a => Text.isBlank a = false ∧ a ≠ '/')
      (by decide) digit
    exact significant_cons blank slash rest
  · exact significant_of_start start rest
  · have ⟨blank, slash⟩ := table a (by simp [eq])
    exact significant_cons blank slash rest
  · have ⟨blank, slash⟩ := table a (List.mem_cons_of_mem _ leads)
    exact significant_cons blank slash rest

theorem NodeStart.mono {a : Char} {q : Nat} (h : NodeStart q a) (le : p ≤ q) : NodeStart p a :=
  h.imp_right fun ⟨bound, leads⟩ => ⟨Nat.le_trans le bound, leads⟩

theorem Legible.descend (h : Legible I (k + 1) t e)
    (start : ∃ a cs, t = a :: cs ∧ NodeStart (k + 1) a) : Legible I k t e := by
  have read : ReadAt I (k + 1) t e := h.readAt
  have bound : k + 1 ≤ 13 := h.le
  obtain rfl | rfl | rfl | ⟨low, high⟩ : k = 0 ∨ k = 1 ∨ k = 12 ∨ 2 ≤ k ∧ k ≤ 11 := by omega
  · exact .choice read.choice
  · exact .chain read.chainsAt
  · have ⟨a, cs, eq, start⟩ := start
    have first : OperandStart a := start.resolve_right (by simp)
    refine .unary (read.unary ?_ (by simp [eq]))
    rw [eq]
    rintro _ ⟨⟩
    exact first.not_leader
  · exact .tier low high (read.growsAt low high)

-- A text that may stand where the precedence is enough.
structure Fits (I : Scope → Prop) (p : Nat) (t : List Char) (e : Expr) : Prop where
  start   : ∃ a cs, t = a :: cs ∧ NodeStart p a
  legible : ∀ k ≤ p, Legible I k t e

namespace Fits

theorem of_legible (start : ∃ a cs, t = a :: cs ∧ NodeStart p a) (h : Legible I p t e) :
    Fits I p t e where
  start := start
  legible k le := by
    induction le using Nat.decreasingInduction with
    | self => exact h
    | of_succ k lt ih =>
      have ⟨a, cs, eq, first⟩ := start
      exact ih.descend ⟨a, cs, eq, first.mono lt⟩

variable (h : Fits I p t e)

include h

theorem mono {q : Nat} (le : q ≤ p) : Fits I q t e where
  start := by
    have ⟨a, cs, eq, first⟩ := h.start
    exact ⟨a, cs, eq, first.mono le⟩
  legible k le' := h.legible k (Nat.le_trans le' le)

theorem significant (rest : List Char) : Significant (t ++ rest) := by
  have ⟨a, cs, eq, first⟩ := h.start
  rw [eq]
  exact first.significant _

theorem significant_append (gap rest : List Char) : Significant (t ++ gap ++ rest) := by
  rw [List.append_assoc]
  exact h.significant _

theorem readAt (le : k ≤ p) : ReadAt I k t e :=
  (h.legible k le).readAt

theorem growsAt (low : 2 ≤ k) (high : k ≤ 11) (le : k ≤ p) : GrowsAt I k t e := by
  cases h.legible k le with
  | tier _ _ h => exact h
  | _ => omega

theorem chainsAt (le : 1 ≤ p) : ChainsAt I t e := by
  cases h.legible 1 le with
  | chain h => exact h
  | tier _ _ h => omega

theorem appliesAt (le : 13 ≤ p) : AppliesAt I t e := by
  cases h.legible 13 le with
  | primary h => exact h
  | tier _ _ h => omega

theorem expression_takes {gap : List Char} (hg : Gap gap) (stops : Stops 0 rest) :
    whole.expression.Takes I (t ++ gap) e rest := by
  intro c hc
  exact (parses_whole expressionOver_descends hc.valid).trans
    (h.readAt (Nat.zero_le p) gap rest hg stops c hc)

theorem unary_takes (le : 12 ≤ p) {gap : List Char} (hg : Gap gap) (stops : Stops 12 rest) :
    whole.unary.Takes I (t ++ gap) e rest := by
  intro c hc
  exact (parses_whole unaryOver_descends hc.valid).trans (h.readAt le gap rest hg stops c hc)

end Fits

end Legible

end ExprTree.Grammar
