import ExprTree.Parser.Chain
import ExprTree.Proofs.Parser.Repetition

namespace ExprTree

universe u v w x

variable {σ : Type u} {I : σ → Prop}

-- A cursor before a text, in a state with `I`.
structure Cursor.At (I : σ → Prop) (text : List Char) (c : Cursor σ) : Prop where
  valid : c.Valid
  state : I c.state
  rest  : c.rest = text

namespace Cursor.At

variable {c : Cursor σ} {t rest : List Char}

theorem start {source : String} {s : σ} (hs : I s) : (Cursor.start source s).At I source.toList :=
  ⟨Cursor.start_valid source s, hs, rfl⟩

theorem drop (h : c.At I (t ++ rest)) : (c.drop t.length).At I rest where
  valid := h.valid.drop _
  state := h.state
  rest  := by simp [Cursor.drop, h.rest]

theorem assoc {t' : List Char} (h : c.At I (t ++ t' ++ rest)) : c.At I (t ++ (t' ++ rest)) :=
  List.append_assoc t t' rest ▸ h

theorem withState (h : c.At I t) {s : σ} (hs : I s) : (c.withState s).At I t :=
  ⟨h.valid, hs, h.rest⟩

theorem drop_remaining_lt (h : c.At I (t ++ rest)) (some : t ≠ []) :
    (c.drop t.length).remaining < c.remaining := by
  refine h.valid.drop_remaining_lt (List.length_pos_iff.mpr some) ?_
  simp [h.rest, some]

end Cursor.At

namespace Parser

def Takes {α : Type v} (I : σ → Prop) (p : Parser σ α) (t : List Char) (a : α)
    (rest : List Char) : Prop :=
  ∀ c, c.At I (t ++ rest) → p.parses c = [⟨a, c.drop t.length⟩]

def Refuses {α : Type v} (I : σ → Prop) (p : Parser σ α) (rest : List Char) : Prop :=
  ∀ c, c.At I rest → p.parses c = []

section Combinators

variable {α β δ : Type v} {γ : Type w} {p p' : Parser σ α} {q : Parser σ β} {f : α → Parser σ β}
  {t t' rest : List Char} {a : α} {b : β}

theorem Takes.mono {J : σ → Prop} (h : p.Takes J t a rest) (le : ∀ s, I s → J s) :
    p.Takes I t a rest :=
  fun c hc => h c ⟨hc.valid, le c.state hc.state, hc.rest⟩

theorem Takes.parses_start {source : String} {s : σ} (h : p.Takes I source.toList a [])
    (hs : I s) : p.parses (.start source s) = [⟨a, ⟨source, source.utf8ByteSize, [], s⟩⟩] := by
  have start : (Cursor.start source s).At I source.toList := .start hs
  rw [h _ (by rwa [List.append_nil])]
  simp [Cursor.drop, Cursor.start, byteSize_toList]

theorem pure_takes (a : α) (rest : List Char) : (pure a : Parser σ α).Takes I [] a rest := by
  intro c _
  simp

theorem satisfy_takes {test : Char → Bool} {x : Char} (h : test x) (rest : List Char) :
    (satisfy test : Parser σ Char).Takes I [x] x rest := by
  intro c hc
  simp [hc.rest, h]

theorem character_takes (x : Char) (rest : List Char) :
    (character x : Parser σ Char).Takes I [x] x rest :=
  @satisfy_takes σ I (· == x) x (beq_self_eq_true x) rest

theorem anyChar_takes (x : Char) (rest : List Char) :
    (anyChar : Parser σ Char).Takes I [x] x rest :=
  satisfy_takes rfl rest

theorem satisfy_refuses {test : Char → Bool} (h : ∀ x ∈ rest.head?, test x = false) :
    (satisfy test : Parser σ Char).Refuses I rest := by
  intro c hc
  rw [parses_satisfy, hc.rest]
  cases rest with
  | nil => rfl
  | cons x rest => simp [h x rfl]

theorem character_refuses {y : Char} (h : y ∉ rest.head?) :
    (character y : Parser σ Char).Refuses I rest := by
  refine satisfy_refuses fun x mem => ?_
  rw [beq_eq_false_iff_ne]
  rintro rfl
  exact h mem

theorem text_takes (s : String) (rest : List Char) :
    (text s : Parser σ String).Takes I s.toList s rest := by
  intro c hc
  simp [hc.rest, List.isPrefixOf_iff_prefix, String.length_toList]

theorem text_refuses {s : String} (h : ¬s.toList <+: rest) :
    (text s : Parser σ String).Refuses I rest := by
  intro c hc
  simp [hc.rest, List.isPrefixOf_iff_prefix, h]

theorem endOfInput_takes : (endOfInput : Parser σ Unit).Takes I [] () [] := by
  intro c hc
  simp [Cursor.isAtEnd, hc.rest]

protected theorem Takes.bind (hp : p.Takes I t a (t' ++ rest)) (hf : (f a).Takes I t' b rest) :
    (p >>= f).Takes I (t ++ t') b rest := by
  intro c hc
  rw [parses_bind, hp c hc.assoc]
  simp [hf _ hc.assoc.drop]

theorem Takes.bind_nil (hp : p.Takes I t a rest) (hf : (f a).Takes I [] b rest) :
    (p >>= f).Takes I t b rest := by
  have read : (p >>= f).Takes I (t ++ []) b rest := hp.bind hf
  rwa [List.append_nil] at read

theorem Takes.bind_refuses (hp : p.Takes I t a rest) (hf : (f a).Refuses I rest) :
    (p >>= f).Refuses I (t ++ rest) := by
  intro c hc
  rw [parses_bind, hp c hc]
  simp [hf _ hc.drop]

protected theorem Refuses.bind (hp : p.Refuses I rest) : (p >>= f).Refuses I rest := by
  intro c hc
  rw [parses_bind, hp c hc, List.flatMap_nil]

protected theorem Takes.map (hp : p.Takes I t a rest) (f : α → β) :
    (f <$> p).Takes I t (f a) rest := by
  intro c hc
  rw [parses_map, hp c hc, List.map_singleton]

protected theorem Refuses.map (hp : p.Refuses I rest) (f : α → β) : (f <$> p).Refuses I rest := by
  intro c hc
  rw [parses_map, hp c hc, List.map_nil]

protected theorem Takes.seqRight (hp : p.Takes I t a (t' ++ rest)) (hq : q.Takes I t' b rest) :
    (p *> q).Takes I (t ++ t') b rest :=
  hp.bind hq

theorem Takes.seqRight_refuses (hp : p.Takes I t a rest) (hq : q.Refuses I rest) :
    (p *> q).Refuses I (t ++ rest) :=
  hp.bind_refuses hq

protected theorem Refuses.seqRight (hp : p.Refuses I rest) (q : Parser σ β) :
    (p *> q).Refuses I rest :=
  hp.bind

protected theorem Takes.seqLeft (hp : p.Takes I t a (t' ++ rest)) (hq : q.Takes I t' b rest) :
    (p <* q).Takes I (t ++ t') a rest := by
  intro c hc
  rw [parses_seqLeft, hp c hc.assoc]
  simp [hq _ hc.assoc.drop]

protected theorem Refuses.seqLeft (hp : p.Refuses I rest) (q : Parser σ β) :
    (p <* q).Refuses I rest := by
  intro c hc
  rw [parses_seqLeft, hp c hc, List.flatMap_nil]

theorem Takes.between {left : Parser σ β} {right : Parser σ δ} {d : δ} {t₁ t₂ : List Char}
    (h₁ : left.Takes I t₁ b (t ++ (t₂ ++ rest))) (hp : p.Takes I t a (t₂ ++ rest))
    (h₂ : right.Takes I t₂ d rest) : (Parser.between left p right).Takes I (t₁ ++ t ++ t₂) a rest :=
  (h₁.seqRight hp).seqLeft h₂

theorem Refuses.between {left : Parser σ β} (h : left.Refuses I rest) (p : Parser σ α)
    (right : Parser σ δ) : (Parser.between left p right).Refuses I rest :=
  (h.seqRight p).seqLeft right

theorem Takes.pair (hp : p.Takes I t a (t' ++ rest)) (hq : q.Takes I t' b rest) :
    (p.pair q).Takes I (t ++ t') (a, b) rest := by
  intro c hc
  rw [parses_pair, hp c hc.assoc]
  simp [hq _ hc.assoc.drop]

theorem Refuses.pair (hp : p.Refuses I rest) (q : Parser σ β) : (p.pair q).Refuses I rest := by
  intro c hc
  rw [parses_pair, hp c hc, List.flatMap_nil]

theorem Takes.filterMapState {f : σ → α → Option γ} {d : γ} (hp : p.Takes I t a rest)
    (h : ∀ s, I s → f s a = some d) : (p.filterMapState f).Takes I t d rest := by
  intro c hc
  rw [parses_filterMapState, hp c hc]
  simp [h c.state hc.state]

theorem Takes.filterMapState_parses {f : σ → α → Option γ} {o : Option γ} (hp : p.Takes I t a rest)
    (h : ∀ s, I s → f s a = o) {c : Cursor σ} (hc : c.At I (t ++ rest)) :
    (p.filterMapState f).parses c = (o.map (⟨·, c.drop t.length⟩)).toList := by
  rw [parses_filterMapState, hp c hc, ← h c.state hc.state]
  cases eq : f c.state a <;> simp [eq]

theorem Takes.filterMapState_refuses {f : σ → α → Option γ} (hp : p.Takes I t a rest)
    (h : ∀ s, I s → f s a = none) : (p.filterMapState f).Refuses I (t ++ rest) := by
  intro c hc
  rw [parses_filterMapState, hp c hc]
  simp [h c.state hc.state]

theorem Refuses.filterMapState (hp : p.Refuses I rest) (f : σ → α → Option γ) :
    (p.filterMapState f).Refuses I rest := by
  intro c hc
  rw [parses_filterMapState, hp c hc, List.filterMap_nil]

theorem Takes.filterMap {f : α → Option γ} {d : γ} (hp : p.Takes I t a rest) (h : f a = some d) :
    (p.filterMap f).Takes I t d rest := by
  intro c hc
  rw [parses_filterMap, hp c hc]
  simp [h]

theorem Takes.filterMap_refuses {f : α → Option γ} (hp : p.Takes I t a rest) (h : f a = none) :
    (p.filterMap f).Refuses I (t ++ rest) := by
  intro c hc
  rw [parses_filterMap, hp c hc]
  simp [h]

theorem Refuses.filterMap (hp : p.Refuses I rest) (f : α → Option γ) :
    (p.filterMap f).Refuses I rest := by
  intro c hc
  rw [parses_filterMap, hp c hc, List.filterMap_nil]

theorem Takes.filter {keep : α → Bool} (hp : p.Takes I t a rest) (h : keep a) :
    (p.filter keep).Takes I t a rest := by
  intro c hc
  rw [parses_filter, hp c hc]
  simp [h]

theorem filter_refuses {keep : α → Bool}
    (h : ∀ c, c.At I rest → ∀ r ∈ p.parses c, keep r.value = false) :
    (p.filter keep).Refuses I rest := by
  intro c hc
  rw [parses_filter]
  exact List.filter_eq_nil_iff.mpr fun r mem => by simp [h c hc r mem]

theorem Takes.filter_refuses {keep : α → Bool} (hp : p.Takes I t a rest) (h : keep a = false) :
    (p.filter keep).Refuses I (t ++ rest) := by
  refine Parser.filter_refuses fun c hc r mem => ?_
  rw [hp c hc, List.mem_singleton] at mem
  exact mem ▸ h

theorem Takes.notFollowedBy {next : Parser σ γ} (hp : p.Takes I t a rest)
    (hn : next.Refuses I rest) : (p.notFollowedBy next).Takes I t a rest := by
  intro c hc
  rw [parses_notFollowedBy, hp c hc]
  simp [hn _ hc.drop]

theorem Takes.notFollowedBy_refuses {next : Parser σ γ} {d : γ} (hp : p.Takes I t a (t' ++ rest))
    (hn : next.Takes I t' d rest) : (p.notFollowedBy next).Refuses I (t ++ (t' ++ rest)) := by
  intro c hc
  rw [parses_notFollowedBy, hp c hc]
  simp [hn _ hc.drop]

theorem Refuses.notFollowedBy (hp : p.Refuses I rest) (next : Parser σ γ) :
    (p.notFollowedBy next).Refuses I rest := by
  intro c hc
  rw [parses_notFollowedBy, hp c hc, List.filter_nil]

theorem Takes.withState {enter : σ → σ} (hp : p.Takes I t a rest) (h : ∀ s, I s → I (enter s)) :
    (Parser.withState enter p).Takes I t a rest := by
  intro c hc
  rw [parses_withState, hp _ (hc.withState (h c.state hc.state))]
  rfl

theorem Refuses.withState {enter : σ → σ} (hp : p.Refuses I rest) (h : ∀ s, I s → I (enter s)) :
    (Parser.withState enter p).Refuses I rest := by
  intro c hc
  rw [parses_withState, hp _ (hc.withState (h c.state hc.state)), List.map_nil]

theorem Takes.orElse_left (hp : p.Takes I t a rest) (p' : Parser σ α) :
    (p <|> p').Takes I t a rest := by
  intro c hc
  simp [hp c hc]

theorem Refuses.orElse_takes (hp : p.Refuses I (t ++ rest)) (hp' : p'.Takes I t a rest) :
    (p <|> p').Takes I t a rest := by
  intro c hc
  simp [hp c hc, hp' c hc]

protected theorem Refuses.orElse (hp : p.Refuses I rest) (hp' : p'.Refuses I rest) :
    (p <|> p').Refuses I rest := by
  intro c hc
  simp [hp c hc, hp' c hc]

theorem Takes.optional (hp : p.Takes I t a rest) : p.optional.Takes I t (some a) rest :=
  (hp.map some).orElse_left _

theorem Refuses.optional (hp : p.Refuses I rest) : p.optional.Takes I [] none rest :=
  (hp.map some).orElse_takes (pure_takes none rest)

theorem Takes.oneOf_head (hp : p.Takes I t a rest) (ps : List (Parser σ α)) :
    (oneOf (p :: ps)).Takes I t a rest := by
  cases ps with
  | nil => exact hp
  | cons => exact hp.orElse_left _

theorem Refuses.oneOf_tail (hp : p.Refuses I (t ++ rest)) {ps : List (Parser σ α)}
    (h : (oneOf ps).Takes I t a rest) : (oneOf (p :: ps)).Takes I t a rest := by
  cases ps with
  | nil =>
    intro c hc
    exact (List.cons_ne_nil _ _ (h c hc).symm).elim
  | cons => exact hp.orElse_takes h

theorem Takes.oneOf_append {before : List (Parser σ α)}
    (refuse : ∀ p' ∈ before, p'.Refuses I (t ++ rest)) (hp : p.Takes I t a rest)
    (after : List (Parser σ α)) : (oneOf (before ++ p :: after)).Takes I t a rest := by
  induction before with
  | nil => exact hp.oneOf_head after
  | cons p' before ih =>
    have ⟨first, others⟩ := List.forall_mem_cons.mp refuse
    exact first.oneOf_tail (ih others)

theorem oneOf_refuses {ps : List (Parser σ α)} (h : ∀ p ∈ ps, p.Refuses I rest) :
    (oneOf ps).Refuses I rest := by
  intro c hc
  refine List.eq_nil_iff_forall_not_mem.mpr fun r mem => ?_
  have ⟨p, listed, mem⟩ := mem_oneOf c mem
  rw [h p listed c hc] at mem
  exact List.not_mem_nil mem

theorem Takes.oneOf_only {ps : List (Parser σ α)} (hp : p.Takes I t a rest) (mem : p ∈ ps)
    (others : ∀ p' ∈ ps, p' = p ∨ p'.Refuses I (t ++ rest)) : (oneOf ps).Takes I t a rest := by
  induction ps with
  | nil => simp at mem
  | cons p' ps ih =>
    have ⟨first, others⟩ := List.forall_mem_cons.mp others
    cases first with
    | inl eq => exact eq ▸ hp.oneOf_head ps
    | inr refuses =>
      cases mem with
      | head => exact hp.oneOf_head ps
      | tail _ mem => exact refuses.oneOf_tail (ih mem others)

end Combinators

end Parser

namespace Repetition

variable {α : Type v} {β : Type w} {r : Repetition σ α β} {t rest : List Char} {a : α}
  {acc acc' : β} {c : Cursor σ} {n : Nat}

theorem children_of_parses {s : Parsed σ α} (h : r.item.parses c = [s])
    (less : s.tail.remaining < c.remaining) (fold : r.fold.apply acc s.value = some acc') :
    r.children ⟨c, acc, n⟩ = [⟨s.tail, acc', n + 1⟩] := by
  simp [children_eq, h, less, fold, Branch.extend]

theorem yields_step (further : r.max ≠ some n) {s : Parsed σ α} (h : r.item.parses c = [s])
    (less : s.tail.remaining < c.remaining) (fold : r.fold.apply acc s.value = some acc') :
    r.yields ⟨c, acc, n⟩ = r.yields ⟨s.tail, acc', n + 1⟩ := by
  have children : r.children ⟨c, acc, n⟩ = [⟨s.tail, acc', n + 1⟩] :=
    children_of_parses h less fold
  rw [yields_extended further (by simp [children]), children, List.flatMap_singleton]

theorem yields_of_parses (unlimited : r.max = none) {s : Parsed σ α} (h : r.item.parses c = [s])
    (less : s.tail.remaining < c.remaining) (fold : r.fold.apply acc s.value = some acc') :
    r.yields ⟨c, acc, n⟩ = r.yields ⟨s.tail, acc', n + 1⟩ :=
  yields_step (by simp [unlimited]) h less fold

theorem yields_of_takes (unlimited : r.max = none) (item : r.item.Takes I t a rest)
    (hc : c.At I (t ++ rest)) (some : t ≠ []) (fold : r.fold.apply acc a = .some acc') :
    r.yields ⟨c, acc, n⟩ = r.yields ⟨c.drop t.length, acc', n + 1⟩ :=
  yields_of_parses unlimited (item c hc) (hc.drop_remaining_lt some) fold

theorem yields_of_refuses (unlimited : r.max = none) (item : r.item.Refuses I rest)
    (hc : c.At I rest) (enough : r.min ≤ n) : r.yields ⟨c, acc, n⟩ = [⟨acc, c⟩] := by
  have children : r.children ⟨c, acc, n⟩ = [] := by simp [children_eq, item c hc]
  rw [yields_final (by simp [unlimited]) children, if_pos enough]
  rfl

theorem children_map {γ : Type x} (p : Parser σ α) (fold : Fold α β) (fold' : Fold α γ) {g : β → γ}
    (along : ∀ b a, fold'.apply (g b) a = (fold.apply b a).map g) (b : Branch σ β) (n : Nat) :
    children ⟨p, fold', 0, none⟩ ⟨b.cursor, g b.acc, n⟩ =
      (children ⟨p, fold, 0, none⟩ b).map fun child => ⟨child.cursor, g child.acc, n + 1⟩ := by
  rw [children_eq, children_eq, List.map_filterMap]
  refine List.filterMap_congr fun s _ => ?_
  simp only [along]
  split
  case isTrue => cases fold.apply b.acc s.value <;> rfl
  case isFalse => rfl

-- Two loops over one item go the same way if what leads from one accumulator to the other goes along
-- with the folds. Without a least and a greatest number of items, their number does not matter.
theorem yields_map {γ : Type x} (p : Parser σ α) (fold : Fold α β) (fold' : Fold α γ) {g : β → γ}
    (along : ∀ b a, fold'.apply (g b) a = (fold.apply b a).map g) (b : Branch σ β) (n : Nat) :
    yields ⟨p, fold', 0, none⟩ ⟨b.cursor, g b.acc, n⟩ =
      (yields ⟨p, fold, 0, none⟩ b).map fun s => ⟨g s.value, s.tail⟩ := by
  induction b using branch_induction ⟨p, fold, 0, none⟩ generalizing n with
  | full b full => exact nomatch full
  | final b full final =>
    have children := children_map p fold fold' along b n
    rw [final, List.map_nil] at children
    rw [yields_final full final, yields_final (by simp) children, if_pos (Nat.zero_le n),
      if_pos (Nat.zero_le b.count)]
    rfl
  | extended b full extended ih =>
    have children := children_map p fold fold' along b n
    have extended' : Repetition.children ⟨p, fold', 0, none⟩ ⟨b.cursor, g b.acc, n⟩ ≠ [] := by
      simpa [children] using extended
    rw [yields_extended full extended, yields_extended (by simp) extended', children,
      List.flatMap_map, List.map_flatMap]
    exact List.flatMap_congr fun child grown => ih child grown (n + 1)

end Repetition

namespace Parser

section Loop

variable {α β : Type v} {p : Parser σ β} {r : Repetition σ α β} {t t' rest : List Char} {a : α}
  {b b' : β}

def Opens (I : σ → Prop) (p : Parser σ β) (r : Repetition σ α β) (t : List Char) (b : β)
    (rest : List Char) : Prop :=
  ∀ c, c.At I (t ++ rest) → ∃ n, p.parses c = r.yields ⟨c.drop t.length, b, n⟩

theorem Takes.opens (h : p.Takes I t b rest) (r : Repetition σ α β) :
    (p >>= r.parser).Opens I r t b rest := by
  intro c hc
  refine ⟨0, ?_⟩
  rw [parses_bind, h c hc, List.flatMap_singleton]
  rfl

theorem Opens.step (h : p.Opens I r t b (t' ++ rest)) (unlimited : r.max = none)
    (item : r.item.Takes I t' a rest) (some : t' ≠ []) (fold : r.fold.apply b a = .some b') :
    p.Opens I r (t ++ t') b' rest := by
  intro c hc
  have ⟨n, eq⟩ := h c hc.assoc
  refine ⟨n + 1, ?_⟩
  rw [eq, Repetition.yields_of_takes unlimited item hc.assoc.drop some fold]
  simp

theorem Opens.takes (h : p.Opens I r t b rest) (unlimited : r.max = none) (free : r.min = 0)
    (item : r.item.Refuses I rest) : p.Takes I t b rest := by
  intro c hc
  have ⟨n, eq⟩ := h c hc
  rw [eq, Repetition.yields_of_refuses unlimited item hc.drop (by simp [free])]

end Loop

section Lists

variable {α β : Type v} {p : Parser σ α} {separator : Parser σ β} {t t' rest : List Char} {a : α}
  {as : List α} {b : β}

-- The text is a number of items one behind the other, and `rest` is not the start of another one.
inductive TakesAll (I : σ → Prop) (p : Parser σ α) (rest : List Char) :
    List Char → List α → Prop
  | nil (refuses : p.Refuses I rest) : TakesAll I p rest [] []
  | cons {t t' : List Char} {a : α} {as : List α} (some : t ≠ [])
      (first : p.Takes I t a (t' ++ rest)) (others : TakesAll I p rest t' as) :
      TakesAll I p rest (t ++ t') (a :: as)

theorem TakesAll.yields {γ : Type w} {fold : γ → α → γ} {min : Nat} (h : TakesAll I p rest t as)
    {c : Cursor σ} (hc : c.At I (t ++ rest)) {acc : γ} {n : Nat} (enough : min ≤ n + as.length) :
    Repetition.yields ⟨p, .accepting fold, min, none⟩ ⟨c, acc, n⟩ =
      [⟨as.foldl fold acc, c.drop t.length⟩] := by
  induction h generalizing c acc n with
  | nil refuses =>
    rw [Repetition.yields_of_refuses rfl refuses hc enough]
    simp
  | @cons t t' a as some first _ ih =>
    have enough : min ≤ n + 1 + as.length := by
      rw [List.length_cons] at enough
      omega
    rw [Repetition.yields_of_takes rfl first hc.assoc some rfl, ih hc.assoc.drop enough]
    simp

theorem TakesAll.manyFold {fold : β → α → β} (h : TakesAll I p rest t as) (seed : β) :
    (p.manyFold seed fold).Takes I t (as.foldl fold seed) rest :=
  fun _ hc => h.yields hc (Nat.zero_le _)

theorem Takes.parses_manyFold {fold : β → α → β} (first : p.Takes I t a rest) (some : t ≠ [])
    (seed : β) {c : Cursor σ} (hc : c.At I (t ++ rest)) :
    (p.manyFold seed fold).parses c =
      (p.manyFold (fold seed a) fold).parses (c.drop t.length) := by
  refine (Repetition.yields_of_takes rfl first hc some rfl).trans ?_
  have count := Repetition.yields_map p (.accepting fold) (.accepting fold) (g := id) (by simp)
    ⟨c.drop t.length, fold seed a, 0⟩ 1
  exact count.trans (List.map_id _)

theorem TakesAll.atLeast (h : TakesAll I p rest t as) {min : Nat} (enough : min ≤ as.length) :
    (p.atLeast min).Takes I t as rest := by
  intro c hc
  rw [Parser.atLeast, parses_map]
  show (Repetition.yields _ _).map _ = _
  rw [h.yields hc (by simpa using enough)]
  simp

theorem Refuses.atLeast (h : p.Refuses I rest) {min : Nat} (some : 0 < min) :
    (p.atLeast min).Refuses I rest := by
  intro c hc
  rw [Parser.atLeast, parses_map]
  show (Repetition.yields _ _).map _ = _
  rw [Repetition.yields_final (by simp) (by simp [Repetition.children_eq, h c hc])]
  simp [Nat.ne_of_gt some]

theorem TakesAll.separatedBy (first : p.Takes I t a (t' ++ rest))
    (h : TakesAll I (separator *> p) rest t' as) :
    (p.separatedBy separator).Takes I (t ++ t') (a :: as) rest := by
  intro c hc
  rw [Parser.separatedBy, parses_map, separated, parses_bind, first c hc.assoc,
    List.flatMap_singleton]
  show (Repetition.yields _ _).map _ = _
  rw [h.yields hc.assoc.drop (Nat.zero_le _)]
  simp

theorem Refuses.separatedBy (h : p.Refuses I rest) (separator : Parser σ β) :
    (p.separatedBy separator).Refuses I rest :=
  h.bind.map _

theorem satisfy_takesAll {test : Char → Bool} {text : List Char} (h : ∀ x ∈ text, test x)
    (stop : ∀ x ∈ rest.head?, test x = false) :
    TakesAll I (satisfy test : Parser σ Char) rest text text := by
  induction text with
  | nil => exact .nil (satisfy_refuses stop)
  | cons x text ih =>
    have ⟨head, tail⟩ := List.forall_mem_cons.mp h
    exact .cons (List.cons_ne_nil _ _) (satisfy_takes head _) (ih tail)

theorem satisfy_repeated {test : Char → Bool} {text : List Char} (h : ∀ x ∈ text, test x)
    (rest : List Char) :
    ((satisfy test : Parser σ Char).repeated text.length (some text.length) []
      fun xs x => some (x :: xs)).Takes I text text.reverse rest := by
  have loop {n size : Nat} {text acc : List Char} (h : ∀ x ∈ text, test x)
      (full : n + text.length = size) {c : Cursor σ} (hc : c.At I (text ++ rest)) :
      Repetition.yields ⟨satisfy test, .rejecting fun xs x => some (x :: xs), size, some size⟩
        ⟨c, acc, n⟩ = [⟨text.reverse ++ acc, c.drop text.length⟩] := by
    induction text generalizing c acc n with
    | nil =>
      rw [Repetition.yields_full (by simpa using full.symm)]
      simp [Repetition.Branch.parsed]
    | cons x text ih =>
      have ⟨head, tail⟩ := List.forall_mem_cons.mp h
      have hc : c.At I ([x] ++ (text ++ rest)) := hc
      have further : some size ≠ some n := by
        rw [List.length_cons] at full
        simp only [ne_eq, Option.some.injEq]
        omega
      have next : n + 1 + text.length = size := by
        rw [List.length_cons] at full
        omega
      rw [Repetition.yields_step further (satisfy_takes head _ c hc)
        (hc.drop_remaining_lt (List.cons_ne_nil x [])) rfl, ih tail next hc.drop]
      simp [Nat.add_comm]
  intro c hc
  exact (loop h (Nat.zero_add _) hc).trans (by simp)

theorem Refuses.repeated {p : Parser σ α} (h : p.Refuses I rest) {min : Nat} (positive : 0 < min)
    {max : Option Nat} (further : max ≠ some 0) (seed : β) (f : β → α → Option β) :
    (p.repeated min max seed f).Refuses I rest := by
  intro c hc
  refine (Repetition.yields_final further ?_).trans (if_neg (Nat.not_le.mpr positive))
  simp [Repetition.children_eq, h c hc]

end Lists

section ChainRight

variable {α : Type v} {operand : Parser σ α} {operator : Parser σ (α → α → Option α)}
  {t t₁ t₂ rest : List Char} {a l e : α} {f : α → α → Option α}

def Folds (head : Parsed σ α) (a : α) (tail : Cursor σ) : List (Link σ α) → Prop
  | [] => head = ⟨a, tail⟩
  | last :: earlier =>
    Link.foldRight head.value last.apply last.operand earlier = some a ∧ last.tail = tail

theorem Folds.cutBack {head : Parsed σ α} {tail : Cursor σ} {links : List (Link σ α)}
    (h : Folds head a tail links) : Link.cutBack head links = ⟨a, tail⟩ := by
  cases links with
  | nil => exact h
  | cons last earlier => simp [Link.cutBack, h.1, h.2]

-- The first link of a chain is the last one to be applied.
theorem foldRight_append {head : α} {apply : α → α → Option α} {right : α} (first : Link σ α)
    (links : List (Link σ α)) :
    Link.foldRight head apply right (links ++ [first]) =
      (Link.foldRight first.operand apply right links).bind (first.apply head) := by
  induction links generalizing apply right with
  | nil => simp [Link.foldRight]
  | cons before earlier ih => simp [Link.foldRight, ih, Option.bind_assoc]

theorem Folds.append {head : Parsed σ α} {tail : Cursor σ} {links : List (Link σ α)}
    (h : Folds head a tail links) (apply : f l a = some e) (t : Cursor σ) :
    Folds ⟨l, t⟩ e tail (links ++ [⟨f, head.value, head.tail⟩]) := by
  cases links with
  | nil =>
    have eq : head = ⟨a, tail⟩ := h
    exact ⟨by simp [Link.foldRight, eq, apply], by simp [eq]⟩
  | cons last earlier =>
    refine ⟨?_, h.2⟩
    simp [foldRight_append, h.1, apply]

abbrev links (operand : Parser σ α) (operator : Parser σ (α → α → Option α)) :
    Repetition σ (Link σ α) (List (Link σ α)) :=
  ⟨Link.parser operand operator, .accepting fun acc link => link :: acc, 0, none⟩

-- The text is a chain: an operand, and links that fold to the value.
def Chains (I : σ → Prop) (operand : Parser σ α) (operator : Parser σ (α → α → Option α))
    (t : List Char) (a : α) (rest : List Char) : Prop :=
  ∀ c, c.At I (t ++ rest) → ∃ head found, operand.parses c = [head] ∧
    (∃ n, head.tail = c.drop n) ∧ Folds head a (c.drop t.length) found ∧
    ∀ acc n, (links operand operator).yields ⟨head.tail, acc, n⟩ =
      [⟨found ++ acc, c.drop t.length⟩]

theorem parses_link (c : Cursor σ) :
    (Link.parser operand operator).parses c =
      ((operator.pair operand).parses c).map fun r =>
        ⟨⟨r.value.1, r.value.2, r.tail⟩, r.tail⟩ := by
  simp [parses, Link.parser]

theorem Takes.chains (h : operand.Takes I t a rest) (refuses : operator.Refuses I rest) :
    Chains I operand operator t a rest := by
  intro c hc
  refine ⟨⟨a, c.drop t.length⟩, [], h c hc, ⟨_, rfl⟩, rfl, fun acc n => ?_⟩
  have item : (links operand operator).item.Refuses I rest := by
    intro c hc
    rw [parses_link, refuses.pair operand c hc, List.map_nil]
  exact Repetition.yields_of_refuses rfl item hc.drop (Nat.zero_le n)

theorem Chains.cons (first : operand.Takes I t l (t₁ ++ (t₂ ++ rest)))
    (middle : operator.Takes I t₁ f (t₂ ++ rest)) (some : t₁ ≠ [])
    (h : Chains I operand operator t₂ a rest) (apply : f l a = .some e) :
    Chains I operand operator (t ++ t₁ ++ t₂) e rest := by
  intro c hc
  have start := hc.assoc.assoc
  have behind := start.drop
  have inner := behind.drop
  have ⟨head, found, parses, ⟨k, tail⟩, folds, loop⟩ := h _ inner
  have item : (Link.parser operand operator).parses (c.drop t.length) =
      [⟨⟨f, head.value, head.tail⟩, head.tail⟩] := by
    rw [parses_link, parses_pair, middle _ behind, List.flatMap_singleton, parses]
    rfl
  have less : head.tail.remaining < (c.drop t.length).remaining := by
    rw [tail]
    exact Nat.lt_of_le_of_lt (Cursor.drop_remaining_le _ k) (behind.drop_remaining_lt some)
  have place : ((c.drop t.length).drop t₁.length).drop t₂.length =
      c.drop (t ++ t₁ ++ t₂).length := by
    simp [Nat.add_assoc]
  rw [place] at folds loop
  refine ⟨⟨l, c.drop t.length⟩, found ++ [⟨f, head.value, head.tail⟩], first c start, ⟨_, rfl⟩,
    folds.append apply _, fun acc n => ?_⟩
  refine (Repetition.yields_of_parses (r := links operand operator) rfl item less rfl).trans ?_
  rw [loop]
  simp

theorem parses_chainRight (c : Cursor σ) :
    (operand.chainRight operator).parses c = (operand.parses c).flatMap fun head =>
      ((links operand operator).yields ⟨head.tail, [], 0⟩).map fun found =>
        Link.cutBack head found.value := by
  simp only [parses, chainRight, Results.toList_flatMap, Results.toList_map]
  rfl

theorem Chains.takes (h : Chains I operand operator t a rest) :
    (operand.chainRight operator).Takes I t a rest := by
  intro c hc
  have ⟨head, found, parses, _, folds, loop⟩ := h c hc
  rw [parses_chainRight, parses, List.flatMap_singleton, loop, List.map_singleton, List.append_nil,
    folds.cutBack]

theorem Refuses.chainRight (h : operand.Refuses I rest)
    (operator : Parser σ (α → α → Option α)) : (operand.chainRight operator).Refuses I rest := by
  intro c hc
  rw [parses_chainRight, h c hc, List.flatMap_nil]

theorem Refuses.chainLeft (h : operand.Refuses I rest) (operator : Parser σ (α → α → Option α)) :
    (operand.chainLeft operator).Refuses I rest :=
  h.bind

theorem Refuses.suffixed (h : operand.Refuses I rest) (suffix : Parser σ (α → Option α)) :
    (operand.suffixed suffix).Refuses I rest :=
  h.bind

end ChainRight

end Parser

end ExprTree
