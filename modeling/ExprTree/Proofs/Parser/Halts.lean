import ExprTree.Proofs.Parser.Takes

namespace ExprTree

universe u v w

variable {σ : Type u} {I : σ → Prop}

namespace Repetition

variable {α : Type v} {β : Type w} {r : Repetition σ α β}

-- A repetition without a least number of items always matches.
theorem yields_ne_nil (free : r.min = 0) (b : Branch σ β) : r.yields b ≠ [] := by
  induction b using branch_induction r with
  | full b full => simp [yields_full full]
  | final b full final => simp [yields_final full final, free]
  | extended b full extended ih =>
    have ⟨child, others, eq⟩ := List.exists_cons_of_ne_nil extended
    rw [yields_extended full extended, eq, List.flatMap_cons]
    exact List.append_ne_nil_of_left_ne_nil (ih child (eq ▸ List.mem_cons_self)) _

end Repetition

namespace Parser

variable {α β δ : Type v} {γ : Type w} {p p' : Parser σ α} {q : Parser σ β} {f : α → Parser σ β}
  {t t' rest : List Char} {a : α}

def Halts (I : σ → Prop) (p : Parser σ α) (t rest : List Char) : Prop :=
  ∀ c, c.At I (t ++ rest) → ∀ r ∈ p.parses c, r.tail = c.drop t.length

theorem Takes.halts (h : p.Takes I t a rest) : p.Halts I t rest := by
  intro c hc r mem
  rw [h c hc, List.mem_singleton] at mem
  rw [mem]

theorem Refuses.halts (h : p.Refuses I (t ++ rest)) : p.Halts I t rest := by
  intro c hc r mem
  rw [h c hc] at mem
  exact absurd mem List.not_mem_nil

namespace Halts

protected theorem bind (hp : p.Halts I t (t' ++ rest)) (hf : ∀ a, (f a).Halts I t' rest) :
    (p >>= f).Halts I (t ++ t') rest := by
  intro c hc r mem
  rw [parses_bind] at mem
  have ⟨s, first, mem⟩ := List.mem_flatMap.mp mem
  rw [hp c hc.assoc s first] at mem
  simpa using hf s.value _ hc.assoc.drop r mem

protected theorem seqRight (hp : p.Halts I t (t' ++ rest)) (hq : q.Halts I t' rest) :
    (p *> q).Halts I (t ++ t') rest :=
  hp.bind fun _ => hq

protected theorem seqLeft (hp : p.Halts I t (t' ++ rest)) (hq : q.Halts I t' rest) :
    (p <* q).Halts I (t ++ t') rest := by
  refine hp.bind fun a => ?_
  have read := hq.bind fun _ => (pure_takes (I := I) a rest).halts
  rwa [List.append_nil] at read

theorem between {left : Parser σ β} {right : Parser σ δ} {t₁ t₂ : List Char}
    (h₁ : left.Halts I t₁ (t ++ (t₂ ++ rest))) (hp : p.Halts I t (t₂ ++ rest))
    (h₂ : right.Halts I t₂ rest) : (Parser.between left p right).Halts I (t₁ ++ t ++ t₂) rest :=
  (h₁.seqRight hp).seqLeft h₂

protected theorem map (hp : p.Halts I t rest) (g : α → β) : (g <$> p).Halts I t rest := by
  intro c hc r mem
  rw [parses_map] at mem
  have ⟨s, mem, eq⟩ := List.mem_map.mp mem
  rw [← eq]
  exact hp c hc s mem

theorem bind_refuses (hp : p.Halts I t rest) (hf : ∀ a, (f a).Refuses I rest) :
    (p >>= f).Refuses I (t ++ rest) := by
  intro c hc
  rw [parses_bind]
  refine List.flatMap_eq_nil_iff.mpr fun s mem => ?_
  rw [hp c hc s mem]
  exact hf s.value _ hc.drop

theorem seqLeft_refuses (hp : p.Halts I t rest) (hq : q.Refuses I rest) :
    (p <* q).Refuses I (t ++ rest) :=
  hp.bind_refuses fun _ => hq.bind

theorem pair_refuses (hp : p.Halts I t rest) (hq : q.Refuses I rest) :
    (p.pair q).Refuses I (t ++ rest) :=
  hp.bind_refuses fun _ => hq.map _

theorem filterMapState (hp : p.Halts I t rest) (g : σ → α → Option γ) :
    (p.filterMapState g).Halts I t rest := by
  intro c hc r mem
  rw [parses_filterMapState] at mem
  have ⟨s, mem, eq⟩ := List.mem_filterMap.mp mem
  have ⟨_, _, eq⟩ := Option.map_eq_some_iff.mp eq
  rw [← eq]
  exact hp c hc s mem

theorem notFollowedBy (hp : p.Halts I t rest) (next : Parser σ γ) :
    (p.notFollowedBy next).Halts I t rest := by
  intro c hc r mem
  rw [parses_notFollowedBy] at mem
  exact hp c hc r (List.mem_of_mem_filter mem)

theorem notFollowedBy_refuses {next : Parser σ γ} (hp : p.Halts I t rest)
    (hn : ∀ c, c.At I rest → next.parses c ≠ []) :
    (p.notFollowedBy next).Refuses I (t ++ rest) := by
  intro c hc
  rw [parses_notFollowedBy, List.filter_eq_nil_iff]
  intro r mem
  rw [hp c hc r mem]
  have matched := hn _ hc.drop
  simpa [Results.isEmpty_eq, parses] using matched

protected theorem orElse (hp : p.Halts I t rest) (hp' : p'.Halts I t rest) :
    (p <|> p').Halts I t rest := by
  intro c hc r mem
  rw [parses_orElse] at mem
  cases List.mem_append.mp (List.mem_of_mem_take mem) with
  | inl mem => exact hp c hc r mem
  | inr mem => exact hp' c hc r mem

theorem oneOf {ps : List (Parser σ α)} (h : ∀ p ∈ ps, p.Halts I t rest) :
    (Parser.oneOf ps).Halts I t rest := by
  intro c hc r mem
  have ⟨p, listed, mem⟩ := mem_oneOf c mem
  exact h p listed c hc r mem

theorem loop {r : Repetition σ α β} {p : Parser σ β} (hp : p.Halts I t rest)
    (unlimited : r.max = none) (final : ∀ c, c.At I rest → ∀ acc, r.children ⟨c, acc, 0⟩ = []) :
    (p >>= r.parser).Halts I t rest := by
  have stays (acc : β) : (r.parser acc).Halts I [] rest := by
    intro c hc s mem
    have read : s ∈ r.yields ⟨c, acc, 0⟩ := mem
    rw [Repetition.yields_final (by simp [unlimited]) (final c hc acc), List.mem_ite_nil_right,
      List.mem_singleton] at read
    simp [read.2, Repetition.Branch.parsed]
  have halted : (p >>= r.parser).Halts I (t ++ []) rest := hp.bind stays
  rwa [List.append_nil] at halted

theorem manyFold {p : Parser σ β} {item : Parser σ α} (hp : p.Halts I t rest)
    (none : item.Refuses I rest) (fold : β → α → β) :
    (p >>= fun b => item.manyFold b fold).Halts I t rest :=
  hp.loop rfl fun c hc acc => by simp [Repetition.children_eq, none c hc]

theorem suffixed {suffix : Parser σ (α → Option α)} (hp : p.Halts I t rest)
    (none : ∀ c, c.At I rest → ∀ s ∈ suffix.parses c, ∀ a, s.value a = none) :
    (p.suffixed suffix).Halts I t rest := by
  refine hp.loop rfl fun c hc acc => ?_
  rw [Repetition.children_eq, List.filterMap_eq_nil_iff]
  intro s mem
  simp [Fold.apply, none c hc s mem acc]

variable {operator : Parser σ (α → α → Option α)}

theorem chainLeft (hp : p.Halts I t rest) (none : operator.Refuses I rest) :
    (p.chainLeft operator).Halts I t rest :=
  hp.loop rfl fun c hc acc => by
    simp [Repetition.children_eq, none.pair p c hc]

theorem chainRight (hp : p.Halts I t rest) (none : operator.Refuses I rest) :
    (p.chainRight operator).Halts I t rest := by
  intro c hc r mem
  rw [parses_chainRight] at mem
  have ⟨head, first, mem⟩ := List.mem_flatMap.mp mem
  have tail := hp c hc head first
  have item : (links p operator).item.Refuses I rest := by
    intro c hc
    rw [parses_link, none.pair p c hc, List.map_nil]
  have here : head.tail.At I rest := tail ▸ hc.drop
  rw [Repetition.yields_of_refuses rfl item here (Nat.zero_le 0), List.map_singleton,
    List.mem_singleton] at mem
  rw [mem]
  exact tail

end Halts

end Parser

end ExprTree
