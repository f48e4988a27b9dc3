import ExprTree.Parser.Chain
import ExprTree.Parser.Outcome
import ExprTree.Proofs.Parser.Repetition

namespace ExprTree

universe u v w

variable {σ : Type u}

theorem length_flatMap_le_one {α : Type v} {β : Type w} {as : List α} {f : α → List β}
    (h : as.length ≤ 1) (hf : ∀ a ∈ as, (f a).length ≤ 1) : (as.flatMap f).length ≤ 1 := by
  match as with
  | [] => simp
  | [a] => simpa using hf a
  | _ :: _ :: _ => simp at h

theorem length_filterMap_le_one {α : Type v} {β : Type w} {as : List α} {f : α → Option β}
    (h : as.length ≤ 1) : (as.filterMap f).length ≤ 1 :=
  Nat.le_trans (List.length_filterMap_le f as) h

def Parser.Unambiguous {α : Type v} (p : Parser σ α) : Prop :=
  ∀ c, (p.parses c).length ≤ 1

namespace Repetition

variable {α : Type v} {β : Type w} {r : Repetition σ α β}

-- An item that is read in one way extends a branch to one branch at most.
theorem yields_length_le_one (h : r.item.Unambiguous) (b : Branch σ β) :
    (r.yields b).length ≤ 1 := by
  induction b using branch_induction r with
  | full b full => simp [yields_full full]
  | final b full final =>
    rw [yields_final full final]
    split <;> simp
  | extended b full extended ih =>
    rw [yields_extended full extended]
    refine length_flatMap_le_one ?_ ih
    rw [children_eq]
    exact length_filterMap_le_one (h b.cursor)

theorem parser_unambiguous (h : r.item.Unambiguous) (seed : β) : (r.parser seed).Unambiguous :=
  fun c => yields_length_le_one h ⟨c, seed, 0⟩

end Repetition

namespace Parser

variable {α β δ : Type v} {γ : Type w} {p : Parser σ α} {q : Parser σ β}

theorem satisfy_unambiguous (test : Char → Bool) : (satisfy test : Parser σ Char).Unambiguous := by
  intro c
  rw [parses_satisfy]
  split
  case h_1 => simp
  case h_2 => split <;> simp

theorem text_unambiguous (s : String) : (text s : Parser σ String).Unambiguous := by
  intro c
  rw [parses_text]
  split <;> simp

theorem endOfInput_unambiguous : (endOfInput : Parser σ Unit).Unambiguous := by
  intro c
  rw [parses_endOfInput]
  split <;> simp

theorem getState_unambiguous : (getState : Parser σ σ).Unambiguous := by
  intro c
  simp

theorem setState_unambiguous (s : σ) : (setState s).Unambiguous := by
  intro c
  simp

theorem pure_unambiguous (a : α) : (pure a : Parser σ α).Unambiguous := by
  intro c
  simp

theorem fail_unambiguous : (fail : Parser σ α).Unambiguous := by
  intro c
  simp

theorem orElse_unambiguous (p₁ p₂ : Parser σ α) : (p₁ <|> p₂).Unambiguous := by
  intro c
  rw [parses_orElse]
  exact List.length_take_le ..

theorem optional_unambiguous (p : Parser σ α) : p.optional.Unambiguous :=
  orElse_unambiguous _ _

theorem oneOf_unambiguous (p₁ p₂ : Parser σ α) (ps : List (Parser σ α)) :
    (oneOf (p₁ :: p₂ :: ps)).Unambiguous :=
  orElse_unambiguous _ _

namespace Unambiguous

protected theorem bind {f : α → Parser σ β} (hp : p.Unambiguous) (hf : ∀ a, (f a).Unambiguous) :
    (p >>= f).Unambiguous := by
  intro c
  rw [parses_bind]
  exact length_flatMap_le_one (hp c) fun r _ => hf r.value r.tail

protected theorem map (hp : p.Unambiguous) (f : α → β) : (f <$> p).Unambiguous := by
  intro c
  rw [parses_map, List.length_map]
  exact hp c

protected theorem seqRight (hp : p.Unambiguous) (hq : q.Unambiguous) : (p *> q).Unambiguous :=
  hp.bind fun _ => hq

protected theorem seqLeft (hp : p.Unambiguous) (hq : q.Unambiguous) : (p <* q).Unambiguous :=
  hp.bind fun a => hq.bind fun _ => pure_unambiguous a

theorem between {p₁ : Parser σ β} {p₂ : Parser σ δ} (h₁ : p₁.Unambiguous) (hp : p.Unambiguous)
    (h₂ : p₂.Unambiguous) : (Parser.between p₁ p p₂).Unambiguous :=
  (h₁.seqRight hp).seqLeft h₂

theorem pair (hp : p.Unambiguous) (hq : q.Unambiguous) : (p.pair q).Unambiguous :=
  hp.bind fun _ => hq.map _

theorem filter (hp : p.Unambiguous) (keep : α → Bool) : (p.filter keep).Unambiguous := by
  intro c
  rw [parses_filter]
  exact Nat.le_trans (List.length_filter_le ..) (hp c)

theorem except [BEq α] (hp : p.Unambiguous) (excluded : Parser σ α) :
    (p.except excluded).Unambiguous := by
  intro c
  rw [parses_except]
  exact Nat.le_trans (List.length_filter_le ..) (hp c)

theorem notFollowedBy (hp : p.Unambiguous) (next : Parser σ γ) :
    (p.notFollowedBy next).Unambiguous := by
  intro c
  rw [parses_notFollowedBy]
  exact Nat.le_trans (List.length_filter_le ..) (hp c)

theorem filterMap (hp : p.Unambiguous) (f : α → Option γ) : (p.filterMap f).Unambiguous := by
  intro c
  rw [parses_filterMap]
  exact length_filterMap_le_one (hp c)

theorem filterMapState (hp : p.Unambiguous) (f : σ → α → Option γ) :
    (p.filterMapState f).Unambiguous := by
  intro c
  rw [parses_filterMapState]
  exact length_filterMap_le_one (hp c)

theorem oneOf {ps : List (Parser σ α)} (h : ∀ p ∈ ps, p.Unambiguous) :
    (Parser.oneOf ps).Unambiguous := by
  match ps with
  | [] => exact fail_unambiguous
  | [p] => exact h p (List.mem_singleton.mpr rfl)
  | p₁ :: p₂ :: ps => exact oneOf_unambiguous p₁ p₂ ps

theorem repeated (hp : p.Unambiguous) (min : Nat) (max : Option Nat) (seed : β)
    (f : β → α → Option β) : (p.repeated min max seed f).Unambiguous :=
  Repetition.parser_unambiguous hp seed

theorem manyFold (hp : p.Unambiguous) (seed : β) (f : β → α → β) :
    (p.manyFold seed f).Unambiguous :=
  Repetition.parser_unambiguous hp seed

theorem atLeast (hp : p.Unambiguous) (min : Nat) : (p.atLeast min).Unambiguous :=
  (Repetition.parser_unambiguous hp []).map _

variable {operator : Parser σ (α → α → Option α)}

theorem chainLeft (hp : p.Unambiguous) (ho : operator.Unambiguous) :
    (p.chainLeft operator).Unambiguous :=
  hp.bind fun _ => (ho.pair hp).repeated _ _ _ _

theorem link (hp : p.Unambiguous) (ho : operator.Unambiguous) :
    (Link.parser p operator).Unambiguous := by
  intro c
  have h := ho.pair hp c
  simpa [parses, Link.parser] using h

theorem chainRight (hp : p.Unambiguous) (ho : operator.Unambiguous) :
    (p.chainRight operator).Unambiguous := by
  intro c
  simp only [parses, Parser.chainRight, Results.toList_flatMap, Results.toList_map]
  refine length_flatMap_le_one (hp c) fun head _ => ?_
  rw [List.length_map]
  exact (hp.link ho).manyFold _ _ head.tail

theorem parse_ne_ambiguous (hp : p.Unambiguous) (source : String) (state : σ) :
    p.parse source state ≠ .error .ambiguous := by
  have single := hp (.start source state)
  rw [parse_eq]
  split
  case h_1 => simp
  case h_2 => simp
  case h_3 eq => simp [eq] at single

theorem map_parse_ne_ambiguous (hp : p.Unambiguous) (f : Parsed σ α → γ)
    (source : String) (state : σ) : (p.parse source state).map f ≠ .error .ambiguous := by
  have ne := hp.parse_ne_ambiguous source state
  cases h : p.parse source state with
  | error e => exact fun eq => ne (h.trans (congrArg Except.error (Except.error.inj eq)))
  | ok r => nofun

end Unambiguous

end Parser

end ExprTree
