import Mathlib.Data.List.Forall2
import ExprTree.Parser.Chain
import ExprTree.Parser.Outcome
import ExprTree.Proofs.Parser.Repetition

namespace ExprTree

universe u v v' w w'

variable {σ : Type u}

structure Parsed.Related {α : Type v} {α' : Type v'} (S : Cursor σ → Cursor σ → Prop)
    (V : α → α' → Prop) (r : Parsed σ α) (r' : Parsed σ α') : Prop where
  value : V r.value r'.value
  tail  : S r.tail r'.tail

theorem option_rel_iff {α : Type v} {α' : Type v'} {V : α → α' → Prop} {o : Option α}
    {o' : Option α'} :
    Option.Rel V o o' ↔ o = none ∧ o' = none ∨ ∃ a a', o = some a ∧ o' = some a' ∧ V a a' := by
  constructor
  case mp =>
    intro h
    cases h with
    | none => exact .inl ⟨rfl, rfl⟩
    | some related => exact .inr ⟨_, _, rfl, rfl, related⟩
  case mpr =>
    rintro (⟨rfl, rfl⟩ | ⟨_, _, rfl, rfl, related⟩)
    · exact .none
    · exact .some related

theorem option_rel_imp {α : Type v} {α' : Type v'} {V V' : α → α' → Prop} {o : Option α}
    {o' : Option α'} (h : Option.Rel V o o') (imp : ∀ a a', V a a' → V' a a') :
    Option.Rel V' o o' := by
  cases h with
  | none => exact .none
  | some related => exact .some (imp _ _ related)

-- Folds that take a value up in the same way, with related accumulators.
def Fold.Related {α : Type v} {β : Type w} {β' : Type w'} (W : β → β' → Prop) (fold : Fold α β)
    (fold' : Fold α β') : Prop :=
  ∀ acc acc' a, W acc acc' → Option.Rel W (fold.apply acc a) (fold'.apply acc' a)

theorem Fold.related_self {α : Type v} {β : Type w} (fold : Fold α β) :
    Fold.Related Eq fold fold := by
  rintro acc _ a rfl
  cases fold.apply acc a with
  | none => exact .none
  | some next => exact .some rfl

namespace Parser

def Relates {α : Type v} {α' : Type v'} (p : Parser σ α) (p' : Parser σ α')
    (R S : Cursor σ → Cursor σ → Prop) (V : α → α' → Prop) : Prop :=
  ∀ c c', R c c' → List.Forall₂ (Parsed.Related S V) (p.parses c) (p'.parses c')

def Agrees {α : Type v} (p p' : Parser σ α) (R S : Cursor σ → Cursor σ → Prop) : Prop :=
  p.Relates p' R S Eq

def Respects {α : Type v} (p : Parser σ α) (R : Cursor σ → Cursor σ → Prop) : Prop :=
  p.Agrees p R R

theorem eq_of_related {α : Type v} {S : Cursor σ → Cursor σ → Prop}
    {found found' : List (Parsed σ α)} (h : List.Forall₂ (Parsed.Related S Eq) found found')
    (same : ∀ t t', S t t' → t = t') : found = found' := by
  rw [← List.forall₂_eq_eq_eq]
  exact h.imp fun r r' ⟨value, tail⟩ => by
    cases r; cases r'
    exact congrArg₂ _ value (same _ _ tail)

end Parser

namespace Repetition

variable {α : Type v} {α' : Type v'} {β : Type v} {β' : Type v'}
  {r : Repetition σ α β} {r' : Repetition σ α' β'} {R : Cursor σ → Cursor σ → Prop}
  {V : α → α' → Prop} {W : β → β' → Prop}

structure Branch.Related (R : Cursor σ → Cursor σ → Prop) (W : β → β' → Prop) (b : Branch σ β)
    (b' : Branch σ β') : Prop where
  cursor : R b.cursor b'.cursor
  acc    : W b.acc b'.acc
  count  : b.count = b'.count

structure Related (R : Cursor σ → Cursor σ → Prop) (V : α → α' → Prop) (W : β → β' → Prop)
    (r : Repetition σ α β) (r' : Repetition σ α' β') : Prop where
  remaining : ∀ c c', R c c' → c.remaining = c'.remaining
  item      : r.item.Relates r'.item R R V
  fold      : ∀ acc acc' a a', W acc acc' → V a a' →
    Option.Rel W (r.fold.apply acc a) (r'.fold.apply acc' a')
  min       : r.min = r'.min
  max       : r.max = r'.max

theorem children_related (h : Related R V W r r') {b : Branch σ β} {b' : Branch σ β'}
    (hb : Branch.Related R W b b') :
    List.Forall₂ (Branch.Related R W) (r.children b) (r'.children b') := by
  rw [children_eq, children_eq]
  refine List.rel_filterMap (fun s s' hs => ?_) (h.item _ _ hb.cursor)
  rw [h.remaining _ _ hb.cursor, h.remaining _ _ hs.tail]
  split
  case isFalse => exact .none
  case isTrue =>
    have folded := h.fold _ _ _ _ hb.acc hs.value
    generalize r.fold.apply b.acc s.value = o at *
    generalize r'.fold.apply b'.acc s'.value = o' at *
    cases folded with
    | none => exact .none
    | some acc => exact .some ⟨hs.tail, acc, congrArg (· + 1) hb.count⟩

theorem yields_related (h : Related R V W r r') {b : Branch σ β} {b' : Branch σ β'}
    (hb : Branch.Related R W b b') :
    List.Forall₂ (Parsed.Related R W) (r.yields b) (r'.yields b') := by
  -- The second branch is full or extended where the first one is.
  induction b using branch_induction r generalizing b' with
  | full b full =>
    have full' : r'.max = some b'.count := by rw [← h.max, full, hb.count]
    rw [yields_full full, yields_full full']
    exact .cons ⟨hb.acc, hb.cursor⟩ .nil
  | final b full final =>
    have full' : r'.max ≠ some b'.count := by rwa [← h.max, ← hb.count]
    have children := children_related h hb
    rw [final] at children
    rw [yields_final full final, yields_final full' (List.forall₂_nil_left_iff.mp children), h.min,
      hb.count]
    split
    case isTrue => exact .cons ⟨hb.acc, hb.cursor⟩ .nil
    case isFalse => exact .nil
  | extended b full extended ih =>
    have full' : r'.max ≠ some b'.count := by rwa [← h.max, ← hb.count]
    have children := children_related h hb
    have extended' : r'.children b' ≠ [] := by
      intro eq
      rw [eq] at children
      exact extended (List.forall₂_nil_right_iff.mp children)
    rw [yields_extended full extended, yields_extended full' extended']
    have grown := (List.forall₂_and_left _ _).mpr ⟨fun _ grown => grown, children⟩
    exact List.rel_flatMap grown fun child child' ⟨grown, related⟩ => ih child grown related

theorem parser_relates (h : Related R V W r r') {seed : β} {seed' : β'} (start : W seed seed') :
    (r.parser seed).Relates (r'.parser seed') R R W :=
  fun _ _ hc => yields_related h ⟨hc, start, rfl⟩

end Repetition

namespace Parser

variable {α β δ : Type v} {γ : Type w} {p p' : Parser σ α} {q q' : Parser σ β}
  {R R' S S' T : Cursor σ → Cursor σ → Prop}

theorem pure_agrees (a : α) : (pure a : Parser σ α).Agrees (pure a) R R :=
  fun _ _ hc => .cons ⟨rfl, hc⟩ .nil

theorem fail_agrees : (fail : Parser σ α).Agrees fail R S :=
  fun _ _ _ => .nil

namespace Agrees

theorem mono (h : p.Agrees p' R S) (before : ∀ c c', R' c c' → R c c')
    (behind : ∀ c c', S c c' → S' c c') : p.Agrees p' R' S' :=
  fun c c' hc => (h c c' (before c c' hc)).imp fun _ _ hr => ⟨hr.value, behind _ _ hr.tail⟩

protected theorem bind {f f' : α → Parser σ β} (hp : p.Agrees p' R S)
    (hf : ∀ a, (f a).Agrees (f' a) S T) : (p >>= f).Agrees (p' >>= f') R T := by
  intro c c' hc
  rw [parses_bind, parses_bind]
  refine List.rel_flatMap (hp c c' hc) fun r r' hr => ?_
  rw [← hr.value]
  exact hf r.value r.tail r'.tail hr.tail

protected theorem map (hp : p.Agrees p' R S) (f : α → β) : (f <$> p).Agrees (f <$> p') R S := by
  intro c c' hc
  rw [parses_map, parses_map]
  exact List.rel_map (fun r r' hr => ⟨congrArg f hr.value, hr.tail⟩) (hp c c' hc)

protected theorem seqRight (hp : p.Agrees p' R S) (hq : q.Agrees q' S T) :
    (p *> q).Agrees (p' *> q') R T :=
  hp.bind fun _ => hq

protected theorem seqLeft (hp : p.Agrees p' R S) (hq : q.Agrees q' S T) :
    (p <* q).Agrees (p' <* q') R T :=
  hp.bind fun a => hq.bind fun _ => pure_agrees a

theorem between {p₁ p₁' : Parser σ β} {p₂ p₂' : Parser σ δ} (h₁ : p₁.Agrees p₁' R S)
    (hp : p.Agrees p' S S') (h₂ : p₂.Agrees p₂' S' T) :
    (Parser.between p₁ p p₂).Agrees (Parser.between p₁' p' p₂') R T :=
  (h₁.seqRight hp).seqLeft h₂

theorem pair (hp : p.Agrees p' R S) (hq : q.Agrees q' S T) : (p.pair q).Agrees (p'.pair q') R T :=
  hp.bind fun _ => hq.map _

theorem filterMapState {f : σ → α → Option γ} (hp : p.Agrees p' R S)
    (h : ∀ c c' a, S c c' → f c.state a = f c'.state a) :
    (p.filterMapState f).Agrees (p'.filterMapState f) R S := by
  intro c c' hc
  rw [parses_filterMapState, parses_filterMapState]
  refine List.rel_filterMap (fun r r' hr => ?_) (hp c c' hc)
  rw [← hr.value, h r.tail r'.tail r.value hr.tail]
  cases f r'.tail.state r.value with
  | none => exact .none
  | some b => exact .some ⟨rfl, hr.tail⟩

theorem filterMap (hp : p.Agrees p' R S) (f : α → Option γ) :
    (p.filterMap f).Agrees (p'.filterMap f) R S :=
  filterMapState (f := fun _ => f) hp fun _ _ _ _ => rfl

theorem filter (hp : p.Agrees p' R S) (keep : α → Bool) :
    (p.filter keep).Agrees (p'.filter keep) R S := by
  intro c c' hc
  rw [parses_filter, parses_filter]
  exact List.rel_filter (fun r r' hr => by dsimp only; rw [hr.value]) (hp c c' hc)

theorem mem (hp : p.Agrees p' R S) {c c' : Cursor σ} (hc : R c c') :
    List.Forall₂ (fun r r' => (r ∈ p.parses c ∧ r' ∈ p'.parses c') ∧ Parsed.Related S Eq r r')
      (p.parses c) (p'.parses c') := by
  have ⟨length, related⟩ := List.forall₂_iff_zip.mp (hp c c' hc)
  exact List.forall₂_iff_zip.mpr ⟨length, fun mem => ⟨List.of_mem_zip mem, related mem⟩⟩

theorem values_eq (hp : p.Agrees p' R S) {c c' : Cursor σ} (hc : R c c') :
    (p.parses c).map (·.value) = (p'.parses c').map (·.value) := by
  rw [← List.forall₂_eq_eq_eq]
  exact List.rel_map (fun _ _ hr => hr.value) (hp c c' hc)

theorem except [BEq α] {excluded excluded' : Parser σ α} (hp : p.Agrees p' R S)
    (he : excluded.Agrees excluded' R T) :
    (p.except excluded).Agrees (p'.except excluded') R S := by
  intro c c' hc
  rw [parses_except, parses_except, he.values_eq hc]
  exact List.rel_filter (fun r r' hr => by dsimp only; rw [hr.value]) (hp c c' hc)

protected theorem append {p₁ p₁' : Parser σ α} (hp : p.Agrees p' R S) (h₁ : p₁.Agrees p₁' R S) :
    (p.append p₁).Agrees (p'.append p₁') R S := by
  intro c c' hc
  rw [parses_append, parses_append]
  exact List.rel_append (hp c c' hc) (h₁ c c' hc)

theorem notFollowedBy {next next' : Parser σ γ} (hp : p.Agrees p' R S)
    (hn : next.Agrees next' S T) : (p.notFollowedBy next).Agrees (p'.notFollowedBy next') R S := by
  intro c c' hc
  rw [parses_notFollowedBy, parses_notFollowedBy]
  refine List.rel_filter (fun r r' hr => ?_) (hp c c' hc)
  have same := (hn r.tail r'.tail hr.tail).length_eq
  show (next.parses r.tail).isEmpty ↔ (next'.parses r'.tail).isEmpty
  rw [List.isEmpty_iff_length_eq_zero, List.isEmpty_iff_length_eq_zero, same]

theorem withState {enter : σ → σ} (hp : p.Agrees p' R' S')
    (before : ∀ c c', R c c' → R' (c.withState (enter c.state)) (c'.withState (enter c'.state)))
    (behind : ∀ c c' t t', R c c' → S' t t' → S (t.withState c.state) (t'.withState c'.state)) :
    (Parser.withState enter p).Agrees (Parser.withState enter p') R S := by
  intro c c' hc
  rw [parses_withState, parses_withState]
  refine List.rel_map (fun r r' hr => ?_) (hp _ _ (before c c' hc))
  exact ⟨hr.value, behind c c' r.tail r'.tail hc hr.tail⟩

protected theorem orElse {p₁ p₁' : Parser σ α} (hp : p.Agrees p' R S) (h₁ : p₁.Agrees p₁' R S) :
    (p <|> p₁).Agrees (p' <|> p₁') R S := by
  intro c c' hc
  rw [parses_orElse, parses_orElse]
  exact List.forall₂_take 1 (List.rel_append (hp c c' hc) (h₁ c c' hc))

theorem optional (hp : p.Agrees p' R R) : p.optional.Agrees p'.optional R R :=
  (hp.map some).orElse (pure_agrees none)

theorem oneOf {ps ps' : List (Parser σ α)}
    (h : List.Forall₂ (fun p p' => p.Agrees p' R S) ps ps') :
    (Parser.oneOf ps).Agrees (Parser.oneOf ps') R S := by
  induction h with
  | nil => exact fail_agrees
  | cons head tail ih =>
    cases tail with
    | nil => exact head
    | cons => exact head.orElse ih

theorem allOf {ps ps' : List (Parser σ α)}
    (h : List.Forall₂ (fun p p' => p.Agrees p' R S) ps ps') :
    (Parser.allOf ps).Agrees (Parser.allOf ps') R S := by
  induction h with
  | nil => exact fail_agrees
  | cons head _ ih => exact head.append ih

theorem outcome (hp : p.Agrees p' R S) {source source' : String} {s s' : σ}
    (start : R (.start source s) (.start source' s')) :
    (p.parse source s).map (·.value) = (p'.parse source' s').map (·.value) := by
  have related := hp _ _ start
  rw [parse_eq, parse_eq]
  generalize p.parses (.start source s) = found at related ⊢
  generalize p'.parses (.start source' s') = found' at related ⊢
  cases related with
  | nil => rfl
  | cons head others =>
    cases others with
    | nil => exact congrArg Except.ok head.value
    | cons => rfl

section Repetition

variable (same : ∀ c c', R c c' → c.remaining = c'.remaining)

include same

theorem repetition_relates {β' : Type v} {fold : Fold α β} {fold' : Fold α β'} {W : β → β' → Prop}
    (hp : p.Agrees p' R R) (h : Fold.Related W fold fold') (min : Nat) (max : Option Nat) {seed : β}
    {seed' : β'} (start : W seed seed') :
    Relates (Repetition.parser ⟨p, fold, min, max⟩ seed)
      (Repetition.parser ⟨p', fold', min, max⟩ seed') R R W := by
  have related : Repetition.Related R Eq W ⟨p, fold, min, max⟩ ⟨p', fold', min, max⟩ := by
    refine ⟨same, hp, ?_, rfl, rfl⟩
    rintro acc acc' a _ related rfl
    exact h acc acc' a related
  exact Repetition.parser_relates related start

theorem repetition (hp : p.Agrees p' R R) (fold : Fold α β) (min : Nat) (max : Option Nat)
    (seed : β) :
    Agrees (Repetition.parser ⟨p, fold, min, max⟩ seed)
      (Repetition.parser ⟨p', fold, min, max⟩ seed) R R :=
  hp.repetition_relates same fold.related_self min max rfl

theorem atLeast (hp : p.Agrees p' R R) (min : Nat) :
    (p.atLeast min).Agrees (p'.atLeast min) R R :=
  (hp.repetition same _ _ _ _).map _

theorem separatedBy {separator separator' : Parser σ δ} (hp : p.Agrees p' R R)
    (hs : separator.Agrees separator' R R) :
    (p.separatedBy separator).Agrees (p'.separatedBy separator') R R := by
  refine .map (hp.bind fun a => ?_) _
  split
  case h_1 => exact fail_agrees
  case h_2 => exact (hs.seqRight hp).repetition same _ _ _ _

theorem suffixed {suffix suffix' : Parser σ (α → Option α)} (hp : p.Agrees p' R R)
    (hs : suffix.Agrees suffix' R R) : (p.suffixed suffix).Agrees (p'.suffixed suffix') R R :=
  hp.bind fun _ => hs.repetition same _ _ _ _

variable {operator operator' : Parser σ (α → α → Option α)}

theorem chainLeft (hp : p.Agrees p' R R) (ho : operator.Agrees operator' R R) :
    (p.chainLeft operator).Agrees (p'.chainLeft operator') R R :=
  hp.bind fun _ => (ho.pair hp).repetition same _ _ _ _

end Repetition

section Chain

structure Linked (R : Cursor σ → Cursor σ → Prop) (link link' : Link σ α) : Prop where
  apply   : link.apply = link'.apply
  operand : link.operand = link'.operand
  tail    : R link.tail link'.tail

theorem foldRight {head : α} {apply : α → α → Option α} {right : α} {links links' : List (Link σ α)}
    (h : List.Forall₂ (Linked R) links links') :
    Link.foldRight head apply right links = Link.foldRight head apply right links' := by
  induction h generalizing apply right with
  | nil => rfl
  | cons before _ ih => simp only [Link.foldRight, before.apply, before.operand, ih]

theorem cutBack {head head' : Parsed σ α} {links links' : List (Link σ α)}
    (hhead : Parsed.Related R Eq head head') (h : List.Forall₂ (Linked R) links links') :
    Parsed.Related R Eq (Link.cutBack head links) (Link.cutBack head' links') := by
  induction h with
  | nil => exact hhead
  | cons last earlier ih =>
    rw [Link.cutBack, Link.cutBack, ← hhead.value, ← last.apply, ← last.operand,
      ← foldRight earlier]
    split
    case h_1 => exact ⟨rfl, last.tail⟩
    case h_2 => exact ih

variable {operator operator' : Parser σ (α → α → Option α)}

theorem link (hp : p.Agrees p' R R) (ho : operator.Agrees operator' R R) :
    (Link.parser p operator).Relates (Link.parser p' operator') R R (Linked R) := by
  intro c c' hc
  simp only [parses, Link.parser, Results.toList_map]
  refine List.rel_map (fun r r' hr => ?_) ((ho.pair hp) c c' hc)
  exact ⟨⟨congrArg Prod.fst hr.value, congrArg Prod.snd hr.value, hr.tail⟩, hr.tail⟩

theorem chainRight (same : ∀ c c', R c c' → c.remaining = c'.remaining) (hp : p.Agrees p' R R)
    (ho : operator.Agrees operator' R R) :
    (p.chainRight operator).Agrees (p'.chainRight operator') R R := by
  intro c c' hc
  simp only [parses, Parser.chainRight, Results.toList_flatMap, Results.toList_map]
  refine List.rel_flatMap (hp c c' hc) fun head head' hhead => ?_
  have related : Repetition.Related R (Linked R) (List.Forall₂ (Linked R))
      ⟨Link.parser p operator, .accepting fun acc link => link :: acc, 0, none⟩
      ⟨Link.parser p' operator', .accepting fun acc link => link :: acc, 0, none⟩ :=
    ⟨same, hp.link ho, fun _ _ _ _ earlier last => .some (.cons last earlier), rfl, rfl⟩
  have links := Repetition.parser_relates related .nil head.tail head'.tail hhead.tail
  exact List.rel_map (fun _ _ found => cutBack hhead found.value) links

end Chain

end Agrees

end Parser

end ExprTree
