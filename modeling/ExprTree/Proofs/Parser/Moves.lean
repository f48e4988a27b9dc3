import ExprTree.Proofs.Parser.Keeps

namespace ExprTree

universe u v w

variable {σ : Type u}

-- The second cursor is the first one, some characters further on and in the same state.
def Cursor.Leads (c t : Cursor σ) : Prop :=
  ∃ n, t = c.drop n

namespace Cursor.Leads

variable {c t : Cursor σ}

protected theorem refl (c : Cursor σ) : c.Leads c :=
  ⟨0, c.drop_zero.symm⟩

protected theorem trans {t' : Cursor σ} (h : c.Leads t) (h' : t.Leads t') : c.Leads t' := by
  have ⟨m, eq⟩ := h
  have ⟨n, eq'⟩ := h'
  exact ⟨m + n, by rw [eq', eq, drop_drop]⟩

theorem state_eq (h : c.Leads t) : t.state = c.state := by
  have ⟨_, eq⟩ := h
  rw [eq, drop_state]

theorem rest_suffix (h : c.Leads t) : t.rest <:+ c.rest := by
  have ⟨n, eq⟩ := h
  exact eq ▸ List.drop_suffix n c.rest

theorem valid (h : c.Leads t) (hc : c.Valid) : t.Valid := by
  have ⟨n, eq⟩ := h
  exact eq ▸ hc.drop n

theorem remaining_le (h : c.Leads t) : t.remaining ≤ c.remaining := by
  have ⟨n, eq⟩ := h
  exact eq ▸ c.drop_remaining_le n

theorem withState (h : c.Leads t) (s : σ) : (c.withState s).Leads (t.withState s) := by
  have ⟨n, eq⟩ := h
  exact ⟨n, by rw [eq, withState_drop]⟩

end Cursor.Leads

namespace Parser

variable {α β δ : Type v} {γ : Type w} {p : Parser σ α} {q : Parser σ β}

def Moves (p : Parser σ α) : Prop :=
  ∀ c, ∀ r ∈ p.parses c, c.Leads r.tail

theorem moves_iff : p.Moves ↔ ∀ c : Cursor σ, p.Keeps c.Leads fun _ => True where
  mp h _ t ht r mem := ⟨trivial, ht.trans (h t r mem)⟩
  mpr h c r mem := (h c c (.refl c) r mem).2

theorem satisfy_moves (test : Char → Bool) : (satisfy test : Parser σ Char).Moves := by
  intro c r mem
  rw [parses_satisfy] at mem
  split at mem
  case h_1 => simp at mem
  case h_2 =>
    rw [List.mem_ite_nil_right, List.mem_singleton] at mem
    exact mem.2 ▸ ⟨1, rfl⟩

theorem text_moves (s : String) : (text s : Parser σ String).Moves := by
  intro c r mem
  rw [parses_text, List.mem_ite_nil_right, List.mem_singleton] at mem
  exact mem.2 ▸ ⟨s.length, rfl⟩

theorem textIgnoringCase_moves (s : String) : (textIgnoringCase s : Parser σ String).Moves := by
  intro c r mem
  rw [parses_textIgnoringCase, List.mem_ite_nil_right, List.mem_singleton] at mem
  exact mem.2 ▸ ⟨s.length, rfl⟩

theorem pure_moves (a : α) : (pure a : Parser σ α).Moves :=
  moves_iff.mpr fun _ => pure_keeps trivial

theorem fail_moves : (fail : Parser σ α).Moves :=
  moves_iff.mpr fun _ => fail_keeps

namespace Moves

theorem keeps {I : Cursor σ → Prop} (hp : p.Moves) (h : ∀ c n, I c → I (c.drop n)) :
    p.Keeps I fun _ => True := by
  intro c hc r mem
  have ⟨n, eq⟩ := hp c r mem
  exact ⟨trivial, eq ▸ h c n hc⟩

theorem leads (hp : p.Moves) (c : Cursor σ) : p.Keeps c.Leads fun _ => True :=
  moves_iff.mp hp c

protected theorem bind {f : α → Parser σ β} (hp : p.Moves) (hf : ∀ a, (f a).Moves) :
    (p >>= f).Moves :=
  moves_iff.mpr fun c => (hp.leads c).bind fun a _ => (hf a).leads c

protected theorem map (hp : p.Moves) (f : α → β) : (f <$> p).Moves :=
  moves_iff.mpr fun c => (hp.leads c).map fun _ _ => trivial

protected theorem seqRight (hp : p.Moves) (hq : q.Moves) : (p *> q).Moves :=
  hp.bind fun _ => hq

protected theorem seqLeft (hp : p.Moves) (hq : q.Moves) : (p <* q).Moves :=
  hp.bind fun a => hq.bind fun _ => pure_moves a

theorem between {p₁ : Parser σ β} {p₂ : Parser σ δ} (h₁ : p₁.Moves) (hp : p.Moves)
    (h₂ : p₂.Moves) : (Parser.between p₁ p p₂).Moves :=
  (h₁.seqRight hp).seqLeft h₂

theorem pair (hp : p.Moves) (hq : q.Moves) : (p.pair q).Moves :=
  hp.bind fun _ => hq.map _

theorem filter (hp : p.Moves) (keep : α → Bool) : (p.filter keep).Moves :=
  moves_iff.mpr fun c => (hp.leads c).filter keep

theorem except [BEq α] (hp : p.Moves) (excluded : Parser σ α) : (p.except excluded).Moves :=
  moves_iff.mpr fun c => (hp.leads c).except excluded

theorem notFollowedBy (hp : p.Moves) (next : Parser σ γ) : (p.notFollowedBy next).Moves :=
  moves_iff.mpr fun c => (hp.leads c).notFollowedBy next

theorem filterMap (hp : p.Moves) (f : α → Option γ) : (p.filterMap f).Moves :=
  moves_iff.mpr fun c => (hp.leads c).filterMap fun _ _ _ _ => trivial

theorem filterMapState (hp : p.Moves) (f : σ → α → Option γ) : (p.filterMapState f).Moves :=
  moves_iff.mpr fun c => (hp.leads c).filterMapState fun _ _ _ _ _ _ => trivial

theorem withState (hp : p.Moves) (enter : σ → σ) : (Parser.withState enter p).Moves := by
  intro c r mem
  rw [parses_withState] at mem
  have ⟨s, mem, eq⟩ := List.mem_map.mp mem
  exact eq ▸ (hp _ s mem).withState c.state

protected theorem orElse {p' : Parser σ α} (hp : p.Moves) (hp' : p'.Moves) : (p <|> p').Moves :=
  moves_iff.mpr fun c => (hp.leads c).orElse (hp'.leads c)

theorem optional (hp : p.Moves) : p.optional.Moves :=
  (hp.map some).orElse (pure_moves none)

theorem oneOf {ps : List (Parser σ α)} (h : ∀ p ∈ ps, p.Moves) : (Parser.oneOf ps).Moves :=
  moves_iff.mpr fun c => .oneOf fun p mem => (h p mem).leads c

theorem repeated (hp : p.Moves) (min : Nat) (max : Option Nat) (seed : β)
    (f : β → α → Option β) : (p.repeated min max seed f).Moves :=
  moves_iff.mpr fun c => .repeated trivial (hp.leads c) fun _ _ _ _ _ _ => trivial

theorem manyFold (hp : p.Moves) (seed : β) (f : β → α → β) : (p.manyFold seed f).Moves :=
  moves_iff.mpr fun c => .manyFold trivial (hp.leads c) fun _ _ _ _ => trivial

theorem atLeast (hp : p.Moves) (min : Nat) : (p.atLeast min).Moves :=
  moves_iff.mpr fun c => ((hp.leads c).atLeast min).mono fun _ _ => trivial

theorem separatedBy {separator : Parser σ δ} (hp : p.Moves) (hs : separator.Moves) :
    (p.separatedBy separator).Moves :=
  moves_iff.mpr fun c => ((hp.leads c).separatedBy (hs.leads c)).mono fun _ _ => trivial

theorem suffixed {suffix : Parser σ (α → Option α)} (hp : p.Moves) (hs : suffix.Moves) :
    (p.suffixed suffix).Moves :=
  hp.bind fun _ => hs.repeated _ _ _ _

variable {operator : Parser σ (α → α → Option α)}

theorem operators (ho : operator.Moves) (c : Cursor σ) :
    operator.Keeps c.Leads (Keeps.Operator fun _ => True) :=
  (ho.leads c).mono fun _ _ _ _ _ _ _ _ => trivial

theorem chainLeft (hp : p.Moves) (ho : operator.Moves) : (p.chainLeft operator).Moves :=
  moves_iff.mpr fun c => (hp.leads c).chainLeft (ho.operators c)

theorem chainRight (hp : p.Moves) (ho : operator.Moves) : (p.chainRight operator).Moves :=
  moves_iff.mpr fun c => (hp.leads c).chainRight (ho.operators c)

end Moves

end Parser

end ExprTree
