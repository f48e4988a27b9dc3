import ExprTree.Parser.Chain
import ExprTree.Parser.Outcome
import ExprTree.Proofs.Parser.Repetition

namespace ExprTree

universe u v w

def Parser.Keeps {σ : Type u} {α : Type v} (p : Parser σ α) (I : Cursor σ → Prop) (P : α → Prop) :
    Prop :=
  ∀ c, I c → ∀ r ∈ p.parses c, P r.value ∧ I r.tail

variable {σ : Type u} {I : Cursor σ → Prop}

theorem Repetition.parser_keeps {α : Type v} {β : Type w} {r : Repetition σ α β} {P : β → Prop}
    {Q : α → Prop} {seed : β} (start : P seed) (item : r.item.Keeps I Q)
    (fold : ∀ acc a next, P acc → Q a → r.fold.apply acc a = some next → P next) :
    (r.parser seed).Keeps I P := by
  intro c hc x mem
  have step : ∀ b child : Branch σ β, P b.acc ∧ I b.cursor → child ∈ r.children b →
      P child.acc ∧ I child.cursor := by
    intro b child ⟨acc, cursor⟩ grown
    have ⟨s, mem, _, next, applied, eq⟩ := mem_children_iff.mp grown
    have ⟨value, tail⟩ := item b.cursor cursor s mem
    exact eq ▸ ⟨fold b.acc s.value next acc value applied, tail⟩
  have ⟨last, holds, _, eq⟩ := yields_induction (motive := fun b => P b.acc ∧ I b.cursor)
    (b := ⟨c, seed, 0⟩) ⟨start, hc⟩ step mem
  exact eq ▸ holds

namespace Parser

variable {α β δ : Type v} {γ : Type w} {p : Parser σ α} {q : Parser σ β}
  {P P' : α → Prop} {Q : β → Prop} {R : γ → Prop} {S : δ → Prop}

theorem pure_keeps {a : α} (h : P a) : (pure a : Parser σ α).Keeps I P := by
  intro c hc r mem
  rw [parses_pure, List.mem_singleton] at mem
  exact mem ▸ ⟨h, hc⟩

theorem fail_keeps : (fail : Parser σ α).Keeps I P := by
  intro c _ r mem
  simp at mem

theorem endOfInput_keeps : (endOfInput : Parser σ Unit).Keeps I fun _ => True := by
  intro c hc r mem
  rw [parses_endOfInput, List.mem_ite_nil_right, List.mem_singleton] at mem
  exact mem.2 ▸ ⟨trivial, hc⟩

theorem position_keeps : (position : Parser σ (Cursor σ)).Keeps I I := by
  intro c hc r mem
  rw [parses_position, List.mem_singleton] at mem
  exact mem ▸ ⟨hc, hc⟩

theorem getState_keeps : (getState : Parser σ σ).Keeps I fun s => ∃ c, I c ∧ c.state = s := by
  intro c hc r mem
  rw [parses_getState, List.mem_singleton] at mem
  exact mem ▸ ⟨⟨c, hc, rfl⟩, hc⟩

theorem setState_keeps {s : σ} (h : ∀ c, I c → I (c.withState s)) :
    (setState s).Keeps I fun _ => True := by
  intro c hc r mem
  rw [parses_setState, List.mem_singleton] at mem
  exact mem ▸ ⟨trivial, h c hc⟩

theorem updateState_keeps {f : σ → Option σ}
    (h : ∀ c s, I c → f c.state = some s → I (c.withState s)) :
    (updateState f).Keeps I fun _ => True := by
  intro c hc r mem
  rw [parses_updateState, Option.mem_toList, Option.map_eq_some_iff] at mem
  have ⟨s, updated, eq⟩ := mem
  exact eq ▸ ⟨trivial, h c s hc updated⟩

namespace Keeps

theorem mono (hp : p.Keeps I P) (h : ∀ a, P a → P' a) : p.Keeps I P' := by
  intro c hc r mem
  have ⟨value, tail⟩ := hp c hc r mem
  exact ⟨h r.value value, tail⟩

theorem of_subset {p' : Parser σ α} (hp : p.Keeps I P) (h : ∀ c, p'.parses c ⊆ p.parses c) :
    p'.Keeps I P :=
  fun c hc r mem => hp c hc r (h c mem)

protected theorem bind {f : α → Parser σ β} (hp : p.Keeps I P)
    (hf : ∀ a, P a → (f a).Keeps I Q) : (p >>= f).Keeps I Q := by
  intro c hc r mem
  rw [parses_bind] at mem
  have ⟨s, first, mem⟩ := List.mem_flatMap.mp mem
  have ⟨value, tail⟩ := hp c hc s first
  exact hf s.value value s.tail tail r mem

protected theorem map {f : α → β} (hp : p.Keeps I P) (h : ∀ a, P a → Q (f a)) :
    (f <$> p).Keeps I Q := by
  intro c hc r mem
  rw [parses_map] at mem
  have ⟨s, mem, eq⟩ := List.mem_map.mp mem
  have ⟨value, tail⟩ := hp c hc s mem
  exact eq ▸ ⟨h s.value value, tail⟩

protected theorem seqRight (hp : p.Keeps I P) (hq : q.Keeps I Q) : (p *> q).Keeps I Q :=
  hp.bind fun _ _ => hq

protected theorem seqLeft (hp : p.Keeps I P) (hq : q.Keeps I Q) : (p <* q).Keeps I P :=
  hp.bind fun _ value => hq.bind fun _ _ => pure_keeps value

theorem between {p₁ : Parser σ β} {p₂ : Parser σ δ} (h₁ : p₁.Keeps I Q) (hp : p.Keeps I P)
    (h₂ : p₂.Keeps I S) : (Parser.between p₁ p p₂).Keeps I P :=
  (h₁.seqRight hp).seqLeft h₂

theorem pair (hp : p.Keeps I P) (hq : q.Keeps I Q) :
    (p.pair q).Keeps I fun ab => P ab.1 ∧ Q ab.2 :=
  hp.bind fun _ left => hq.map fun _ right => ⟨left, right⟩

theorem filter (hp : p.Keeps I P) (keep : α → Bool) : (p.filter keep).Keeps I P :=
  hp.of_subset fun c => by
    rw [parses_filter]
    exact List.filter_sublist.subset

theorem except [BEq α] (hp : p.Keeps I P) (excluded : Parser σ α) :
    (p.except excluded).Keeps I P :=
  hp.of_subset fun c => by
    rw [parses_except]
    exact List.filter_sublist.subset

theorem notFollowedBy (hp : p.Keeps I P) (next : Parser σ γ) :
    (p.notFollowedBy next).Keeps I P :=
  hp.of_subset fun c => by
    rw [parses_notFollowedBy]
    exact List.filter_sublist.subset

theorem filterMapState {f : σ → α → Option γ} (hp : p.Keeps I P)
    (h : ∀ c a b, I c → P a → f c.state a = some b → R b) : (p.filterMapState f).Keeps I R := by
  intro c hc r mem
  rw [parses_filterMapState] at mem
  have ⟨s, mem, eq⟩ := List.mem_filterMap.mp mem
  have ⟨b, defined, eq⟩ := Option.map_eq_some_iff.mp eq
  have ⟨value, tail⟩ := hp c hc s mem
  exact eq ▸ ⟨h s.tail s.value b tail value defined, tail⟩

theorem filterMap {f : α → Option γ} (hp : p.Keeps I P)
    (h : ∀ a b, P a → f a = some b → R b) : (p.filterMap f).Keeps I R :=
  filterMapState (f := fun _ => f) hp fun _ a b _ => h a b

theorem withState {enter : σ → σ} (hp : p.Keeps I P)
    (before : ∀ c, I c → I (c.withState (enter c.state)))
    (behind : ∀ c t, I c → I t → I (t.withState c.state)) :
    (Parser.withState enter p).Keeps I P := by
  intro c hc r mem
  rw [parses_withState] at mem
  have ⟨s, mem, eq⟩ := List.mem_map.mp mem
  have ⟨value, tail⟩ := hp _ (before c hc) s mem
  exact eq ▸ ⟨value, behind c s.tail hc tail⟩

theorem append {p' : Parser σ α} (hp : p.Keeps I P) (hp' : p'.Keeps I P) :
    (p.append p').Keeps I P := by
  intro c hc r mem
  rw [parses_append] at mem
  cases List.mem_append.mp mem
  case inl mem => exact hp c hc r mem
  case inr mem => exact hp' c hc r mem

theorem first (hp : p.Keeps I P) : p.first.Keeps I P :=
  hp.of_subset fun c => by
    rw [parses_first]
    exact (List.take_sublist 1 _).subset

protected theorem orElse {p' : Parser σ α} (hp : p.Keeps I P) (hp' : p'.Keeps I P) :
    (p <|> p').Keeps I P := by
  intro c hc r mem
  rw [parses_orElse, ← parses_append, ← parses_first] at mem
  exact (hp.append hp').first c hc r mem

theorem optional (hp : p.Keeps I P) : p.optional.Keeps I fun o => ∀ a ∈ o, P a := by
  refine .orElse (hp.map fun a value b eq => ?_) (pure_keeps fun a mem => nomatch mem)
  rw [Option.mem_some_iff] at eq
  exact eq ▸ value

theorem oneOf {ps : List (Parser σ α)} (h : ∀ p ∈ ps, p.Keeps I P) :
    (Parser.oneOf ps).Keeps I P := by
  intro c hc r mem
  have ⟨p, listed, mem⟩ := mem_oneOf c mem
  exact h p listed c hc r mem

theorem allOf {ps : List (Parser σ α)} (h : ∀ p ∈ ps, p.Keeps I P) :
    (Parser.allOf ps).Keeps I P := by
  induction ps with
  | nil => exact fail_keeps
  | cons p ps ih =>
    have ⟨head, tail⟩ := List.forall_mem_cons.mp h
    exact head.append (ih tail)

theorem repeated {min : Nat} {max : Option Nat} {seed : β} {f : β → α → Option β} (start : Q seed)
    (hp : p.Keeps I P) (fold : ∀ acc a next, Q acc → P a → f acc a = some next → Q next) :
    (p.repeated min max seed f).Keeps I Q :=
  Repetition.parser_keeps start hp fold

theorem manyFold {seed : β} {f : β → α → β} (start : Q seed) (hp : p.Keeps I P)
    (fold : ∀ acc a, Q acc → P a → Q (f acc a)) : (p.manyFold seed f).Keeps I Q :=
  Repetition.parser_keeps start hp fun acc a _ hacc ha eq => Option.some.inj eq ▸ fold acc a hacc ha

theorem atLeast (hp : p.Keeps I P) (min : Nat) :
    (p.atLeast min).Keeps I fun as => ∀ a ∈ as, P a := by
  refine .map (P := fun as => ∀ a ∈ as, P a) (Repetition.parser_keeps nofun hp ?_) ?_
  · exact fun _ _ _ hacc ha eq => Option.some.inj eq ▸ List.forall_mem_cons.mpr ⟨ha, hacc⟩
  · exact fun as has a mem => has a (List.mem_reverse.mp mem)

theorem separated {separator : Parser σ δ} {seed : β} {fold : Fold α β} (start : Q seed)
    (hp : p.Keeps I P) (hs : separator.Keeps I S)
    (h : ∀ acc a next, Q acc → P a → fold.apply acc a = some next → Q next) :
    (p.separated separator seed fold).Keeps I Q := by
  refine hp.bind fun a value => ?_
  split
  case h_1 => exact fail_keeps
  case h_2 acc eq => exact Repetition.parser_keeps (h seed a acc start value eq) (hs.seqRight hp) h

theorem separatedBy {separator : Parser σ δ} (hp : p.Keeps I P) (hs : separator.Keeps I S) :
    (p.separatedBy separator).Keeps I fun as => ∀ a ∈ as, P a := by
  refine .map (P := fun as => ∀ a ∈ as, P a) (separated nofun hp hs ?_) ?_
  · exact fun _ _ _ hacc ha eq => Option.some.inj eq ▸ List.forall_mem_cons.mpr ⟨ha, hacc⟩
  · exact fun as has a mem => has a (List.mem_reverse.mp mem)

def Suffix (P : α → Prop) (f : α → Option α) : Prop :=
  ∀ a b, P a → f a = some b → P b

def Operator (P : α → Prop) (f : α → α → Option α) : Prop :=
  ∀ a b c, P a → P b → f a b = some c → P c

theorem suffixed {suffix : Parser σ (α → Option α)} (hp : p.Keeps I P)
    (hs : suffix.Keeps I (Suffix P)) : (p.suffixed suffix).Keeps I P :=
  hp.bind fun _ value => repeated value hs fun acc _ next hacc apply => apply acc next hacc

variable {operator : Parser σ (α → α → Option α)}

theorem chainLeft (hp : p.Keeps I P) (ho : operator.Keeps I (Operator P)) :
    (p.chainLeft operator).Keeps I P :=
  hp.bind fun _ value => repeated value (ho.pair hp) fun acc link next hacc ⟨apply, right⟩ =>
    apply acc link.2 next hacc right

structure Linked (I : Cursor σ → Prop) (P : α → Prop) (link : Link σ α) : Prop where
  apply   : Operator P link.apply
  operand : P link.operand
  tail    : I link.tail

theorem link (hp : p.Keeps I P) (ho : operator.Keeps I (Operator P)) :
    (Link.parser p operator).Keeps I (Linked I P) := by
  intro c hc r mem
  simp only [parses, Link.parser, Results.toList_map, List.mem_map] at mem
  obtain ⟨s, mem, rfl⟩ := mem
  obtain ⟨⟨apply, operand⟩, tail⟩ := (ho.pair hp) c hc s mem
  exact ⟨⟨apply, operand, tail⟩, tail⟩

theorem foldRight {head a : α} {apply : α → α → Option α} {right : α} {links : List (Link σ α)}
    (hhead : P head) (happly : Operator P apply) (hright : P right)
    (hlinks : ∀ link ∈ links, Linked I P link)
    (eq : Link.foldRight head apply right links = some a) : P a := by
  induction links generalizing apply right with
  | nil => exact happly head right a hhead hright eq
  | cons before earlier ih =>
    have ⟨hbefore, hearlier⟩ := List.forall_mem_cons.mp hlinks
    have ⟨folded, step, eq⟩ := Option.bind_eq_some_iff.mp eq
    have hfolded := happly before.operand right folded hbefore.operand hright step
    exact ih hbefore.apply hfolded hearlier eq

theorem cutBack {head : Parsed σ α} {links : List (Link σ α)} (value : P head.value)
    (tail : I head.tail) (hlinks : ∀ link ∈ links, Linked I P link) :
    P (Link.cutBack head links).value ∧ I (Link.cutBack head links).tail := by
  induction links with
  | nil => exact ⟨value, tail⟩
  | cons last earlier ih =>
    have ⟨hlast, hearlier⟩ := List.forall_mem_cons.mp hlinks
    rw [Link.cutBack]
    split
    case h_1 eq => exact ⟨foldRight value hlast.apply hlast.operand hearlier eq, hlast.tail⟩
    case h_2 => exact ih hearlier

theorem chainRight (hp : p.Keeps I P) (ho : operator.Keeps I (Operator P)) :
    (p.chainRight operator).Keeps I P := by
  intro c hc r mem
  simp only [parses, Parser.chainRight, Results.toList_flatMap, Results.toList_map,
    List.mem_flatMap, List.mem_map] at mem
  obtain ⟨head, first, found, mem, rfl⟩ := mem
  obtain ⟨value, tail⟩ := hp c hc head first
  obtain ⟨links, _⟩ := manyFold (Q := fun links => ∀ link ∈ links, Linked I P link)
    (List.forall_mem_nil _) (hp.link ho)
    (fun _ _ hlinks hlink => List.forall_mem_cons.mpr ⟨hlink, hlinks⟩) head.tail tail found mem
  exact cutBack value tail links

theorem parse {source : String} {s : σ} {r : Parsed σ α} (hp : p.Keeps I P)
    (start : I (.start source s)) (h : p.parse source s = .ok r) : P r.value ∧ I r.tail := by
  rw [parse_eq] at h
  split at h
  case h_1 => simp at h
  case h_3 => simp at h
  case h_2 x parses =>
    refine hp (.start source s) start r ?_
    rw [parses, Except.ok.inj h]
    exact List.mem_singleton.mpr rfl

end Keeps

end Parser

end ExprTree
