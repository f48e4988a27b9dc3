import ExprTree.Proofs.Cursor
import ExprTree.Proofs.Parser.Moves

namespace ExprTree

open String.Pos.Raw (IsValid)

namespace Cursor

variable {σ : Type} {c t : Cursor σ}

-- The offset of a valid cursor is a position of its source, and the unread characters are what the
-- source has from there on.
theorem valid_iff :
    c.Valid ↔ ∃ inside : IsValid c.source ⟨c.offset⟩,
      (c.source.sliceFrom (c.source.pos ⟨c.offset⟩ inside)).copy.toList = c.rest where
  mp := by
    intro ⟨read, source, offset⟩
    have split : c.source = String.ofList read ++ String.ofList c.rest := by
      rw [← String.ofList_append, ← source, String.ofList_toList]
    have size : (⟨c.offset⟩ : String.Pos.Raw) = (String.ofList read).rawEndPos := by
      rw [offset, ← utf8ByteSize_ofList]
      rfl
    have inside := String.Pos.Raw.isValid_iff_exists_append.mpr ⟨_, _, split, size⟩
    have ⟨_, same⟩ := (c.source.pos _ inside).splits.eq ⟨split, size⟩
    exact ⟨inside, by rw [same, String.toList_ofList]⟩
  mpr := by
    intro ⟨inside, rest⟩
    have splits := (c.source.pos _ inside).splits
    refine ⟨(c.source.sliceTo (c.source.pos _ inside)).copy.toList, ?_, ?_⟩
    · rw [← rest, ← String.toList_append, ← splits.eq_append]
    · rw [byteSize_toList]
      exact congrArg String.Pos.Raw.byteIdx splits.offset_eq_rawEndPos

structure Onward (c t : Cursor σ) : Prop where
  source : t.source = c.source
  valid  : t.Valid
  le     : c.offset ≤ t.offset

namespace Onward

protected theorem refl (h : c.Valid) : c.Onward c :=
  ⟨rfl, h, Nat.le_refl _⟩

protected theorem trans {t' : Cursor σ} (h : c.Onward t) (h' : t.Onward t') : c.Onward t' :=
  ⟨h'.source.trans h.source, h'.valid, Nat.le_trans h.le h'.le⟩

protected theorem drop (h : c.Onward t) (n : Nat) : c.Onward (t.drop n) :=
  ⟨h.source, h.valid.drop n, Nat.le_trans h.le (Nat.le_add_right _ _)⟩

theorem withState_iff {s : σ} : c.Onward (t.withState s) ↔ c.Onward t where
  mp h := ⟨h.source, h.valid, h.le⟩
  mpr h := ⟨h.source, h.valid, h.le⟩

theorem offset_le (h : c.Onward t) : t.offset ≤ c.source.utf8ByteSize :=
  h.source ▸ h.valid.offset_le

theorem remaining_le (h : c.Onward t) : t.remaining ≤ c.remaining := by
  rw [remaining, remaining, h.source]
  exact Nat.sub_le_sub_left h.le _

end Onward

end Cursor

namespace Parser

variable {σ α : Type} {p : Parser σ α}

def Forward (p : Parser σ α) : Prop :=
  ∀ c, c.Valid → ∀ r ∈ p.parses c, c.Onward r.tail

theorem forward_iff : p.Forward ↔ ∀ c : Cursor σ, p.Keeps c.Onward fun _ => True where
  mp h _ t onward r mem := ⟨trivial, onward.trans (h t onward.valid r mem)⟩
  mpr h c valid r mem := (h c c (.refl valid) r mem).2

theorem Moves.onward (h : p.Moves) (c : Cursor σ) : p.Keeps c.Onward fun _ => True :=
  h.keeps fun _ n onward => onward.drop n

-- The parsers that the primitive ones and the combinators make. A parser may be made only when it
-- is applied, which is how a rule refers to itself.
inductive Built {σ : Type} : {α : Type} → Parser σ α → Prop
  | pure {α : Type} (a : α) : Built (Parser.pure a)
  | fail {α : Type} : Built (fail : Parser σ α)
  | satisfy (test : Char → Bool) : Built (satisfy test)
  | anyChar : Built anyChar
  | character (expected : Char) : Built (character expected)
  | text (expected : String) : Built (text expected)
  | textIgnoringCase (expected : String) : Built (textIgnoringCase expected)
  | endOfInput : Built endOfInput
  | position : Built position
  | getState : Built getState
  | setState (state : σ) : Built (setState state)
  | updateState (f : σ → Option σ) : Built (updateState f)
  | deferred {α : Type} {make : Cursor σ → Parser σ α} (h : ∀ c, Built (make c)) :
      Built ⟨fun c => (make c).run c⟩
  | bind {α β : Type} {p : Parser σ α} {f : α → Parser σ β} (hp : Built p)
      (hf : ∀ a, Built (f a)) : Built (p >>= f)
  | pair {α β : Type} {p : Parser σ α} {q : Parser σ β} (hp : Built p) (hq : Built q) :
      Built (p.pair q)
  | seqLeft {α β : Type} {p : Parser σ α} {q : Parser σ β} (hp : Built p) (hq : Built q) :
      Built (p <* q)
  | seqRight {α β : Type} {p : Parser σ α} {q : Parser σ β} (hp : Built p) (hq : Built q) :
      Built (p *> q)
  | between {α β γ : Type} {left : Parser σ β} {p : Parser σ α} {right : Parser σ γ}
      (hl : Built left) (hp : Built p) (hr : Built right) : Built (between left p right)
  | map {α β : Type} {p : Parser σ α} (hp : Built p) (f : α → β) : Built (f <$> p)
  | filter {α : Type} {p : Parser σ α} (hp : Built p) (keep : α → Bool) : Built (p.filter keep)
  | filterMap {α β : Type} {p : Parser σ α} (hp : Built p) (f : α → Option β) :
      Built (p.filterMap f)
  | filterMapState {α β : Type} {p : Parser σ α} (hp : Built p) (f : σ → α → Option β) :
      Built (p.filterMapState f)
  | append {α : Type} {p q : Parser σ α} (hp : Built p) (hq : Built q) : Built (p.append q)
  | first {α : Type} {p : Parser σ α} (hp : Built p) : Built p.first
  | orElse {α : Type} {p q : Parser σ α} (hp : Built p) (hq : Built q) : Built (p <|> q)
  | oneOf {α : Type} {ps : List (Parser σ α)} (h : ∀ p ∈ ps, Built p) : Built (oneOf ps)
  | allOf {α : Type} {ps : List (Parser σ α)} (h : ∀ p ∈ ps, Built p) : Built (allOf ps)
  | except {α : Type} [BEq α] {p excluded : Parser σ α} (hp : Built p) (he : Built excluded) :
      Built (p.except excluded)
  | notFollowedBy {α β : Type} {p : Parser σ α} {next : Parser σ β} (hp : Built p)
      (hn : Built next) : Built (p.notFollowedBy next)
  | optional {α : Type} {p : Parser σ α} (hp : Built p) : Built p.optional
  | withState {α : Type} {p : Parser σ α} (enter : σ → σ) (hp : Built p) :
      Built (withState enter p)
  | repeated {α β : Type} {p : Parser σ α} (hp : Built p) (min : Nat) (max : Option Nat) (seed : β)
      (f : β → α → Option β) : Built (p.repeated min max seed f)
  | many {α : Type} {p : Parser σ α} (hp : Built p) : Built p.many
  | many1 {α : Type} {p : Parser σ α} (hp : Built p) : Built p.many1
  | manyFold {α β : Type} {p : Parser σ α} (hp : Built p) (seed : β) (f : β → α → β) :
      Built (p.manyFold seed f)
  | separatedByFold {α β γ : Type} {p : Parser σ α} {separator : Parser σ γ} (hp : Built p)
      (hs : Built separator) (seed : β) (f : β → α → Option β) :
      Built (p.separatedByFold separator seed f)
  | separatedBy {α γ : Type} {p : Parser σ α} {separator : Parser σ γ} (hp : Built p)
      (hs : Built separator) : Built (p.separatedBy separator)
  | chainLeft {α : Type} {p : Parser σ α} {operator : Parser σ (α → α → Option α)} (hp : Built p)
      (ho : Built operator) : Built (p.chainLeft operator)
  | chainLeftOr {α : Type} {p : Parser σ α} {operator : Parser σ (α → α → Option α)} (hp : Built p)
      (ho : Built operator) (default : α) : Built (p.chainLeftOr operator default)
  | chainRight {α : Type} {p : Parser σ α} {operator : Parser σ (α → α → Option α)} (hp : Built p)
      (ho : Built operator) : Built (p.chainRight operator)
  | suffixed {α : Type} {p : Parser σ α} {suffix : Parser σ (α → Option α)} (hp : Built p)
      (hs : Built suffix) : Built (p.suffixed suffix)

namespace Built

theorem onward (h : p.Built) (c : Cursor σ) : p.Keeps c.Onward fun _ => True := by
  -- To be onward of a first place is an invariant of the places that a chain goes back to as well.
  induction h with
  | pure a => exact pure_keeps trivial
  | fail => exact fail_keeps
  | satisfy test => exact (satisfy_moves test).onward c
  | anyChar => exact (satisfy_moves _).onward c
  | character expected => exact (satisfy_moves _).onward c
  | text expected => exact (text_moves expected).onward c
  | textIgnoringCase expected => exact (textIgnoringCase_moves expected).onward c
  | endOfInput => exact endOfInput_keeps
  | position => exact position_keeps.mono fun _ _ => trivial
  | getState => exact getState_keeps.mono fun _ _ => trivial
  | setState state => exact setState_keeps fun _ onward => Cursor.Onward.withState_iff.mpr onward
  | updateState f => exact updateState_keeps fun _ _ onward _ => Cursor.Onward.withState_iff.mpr onward
  | deferred _ ih => exact fun t onward => ih t t onward
  | bind _ _ ihp ihf => exact ihp.bind fun a _ => ihf a
  | pair _ _ ihp ihq => exact (ihp.pair ihq).mono fun _ _ => trivial
  | seqLeft _ _ ihp ihq => exact ihp.seqLeft ihq
  | seqRight _ _ ihp ihq => exact ihp.seqRight ihq
  | between _ _ _ ihl ihp ihr => exact ihl.between ihp ihr
  | map _ f ih => exact ih.map fun _ _ => trivial
  | filter _ keep ih => exact ih.filter keep
  | filterMap _ f ih => exact ih.filterMap fun _ _ _ _ => trivial
  | filterMapState _ f ih => exact ih.filterMapState fun _ _ _ _ _ _ => trivial
  | append _ _ ihp ihq => exact ihp.append ihq
  | first _ ih => exact ih.first
  | orElse _ _ ihp ihq => exact ihp.orElse ihq
  | oneOf _ ih => exact .oneOf ih
  | allOf _ ih => exact .allOf ih
  | except _ _ ihp _ => exact ihp.except _
  | notFollowedBy _ _ ihp _ => exact ihp.notFollowedBy _
  | optional _ ih => exact ih.optional.mono fun _ _ => trivial
  | withState enter _ ih =>
    exact ih.withState (fun _ onward => Cursor.Onward.withState_iff.mpr onward)
      fun _ _ _ onward => Cursor.Onward.withState_iff.mpr onward
  | repeated _ min max seed f ih => exact .repeated trivial ih fun _ _ _ _ _ _ => trivial
  | many _ ih => exact (ih.atLeast 0).mono fun _ _ => trivial
  | many1 _ ih => exact (ih.atLeast 1).mono fun _ _ => trivial
  | manyFold _ seed f ih => exact .manyFold trivial ih fun _ _ _ _ => trivial
  | separatedByFold _ _ seed f ihp ihs =>
    exact .separated trivial ihp ihs fun _ _ _ _ _ _ => trivial
  | separatedBy _ _ ihp ihs => exact (ihp.separatedBy ihs).mono fun _ _ => trivial
  | chainLeft _ _ ihp iho => exact ihp.chainLeft (iho.mono fun _ _ _ _ _ _ _ _ => trivial)
  | chainLeftOr _ _ default ihp iho =>
    exact (ihp.chainLeft (iho.mono fun _ _ _ _ _ _ _ _ => trivial)).orElse (pure_keeps trivial)
  | chainRight _ _ ihp iho => exact ihp.chainRight (iho.mono fun _ _ _ _ _ _ _ _ => trivial)
  | suffixed _ _ ihp ihs => exact ihp.suffixed (ihs.mono fun _ _ _ _ _ _ => trivial)

theorem forward (h : p.Built) : p.Forward :=
  forward_iff.mpr h.onward

-- Wherever a parser starts between two characters, it ends between two characters, and what is left
-- to read is the source from there on.
theorem stays_inside (built : p.Built) {c : Cursor σ} (valid : c.Valid) {r : Parsed σ α}
    (mem : r ∈ p.parses c) :
    r.tail.source = c.source ∧
    (∃ read, c.source.toList = read ++ r.tail.rest ∧ r.tail.offset = byteSize read) ∧
    c.offset ≤ r.tail.offset ∧ r.tail.offset ≤ c.source.utf8ByteSize ∧
    ∃ inside : IsValid c.source ⟨r.tail.offset⟩,
      (c.source.sliceFrom (c.source.pos ⟨r.tail.offset⟩ inside)).copy.toList = r.tail.rest := by
  have onward := built.forward c valid r mem
  rw [← onward.source]
  exact ⟨rfl, onward.valid, onward.le, onward.valid.offset_le, Cursor.valid_iff.mp onward.valid⟩

end Built

theorem stays_inside_cutBack :
    let word : Parser Unit Nat := String.length <$> (text "λ" <|> textIgnoringCase "ab")
    let minus : Parser Unit (Nat → Nat → Option Nat) :=
      (fun _ a b => if a ≤ b then none else some (a - b)) <$> character '-'
    let c := Cursor.start "aB-λ-Ab" ()
    ∃ r ∈ (word.chainRight minus).parses c,
      r.value = 1 ∧ r.tail.offset = 5 ∧ IsValid "aB-λ-Ab" ⟨r.tail.offset⟩ := by
  intro word minus c
  have found : ((word.chainRight minus).parses c).any fun r =>
      r.value = 1 ∧ r.tail.offset = 5 := by
    decide +kernel
  have ⟨r, mem, eq⟩ := List.any_eq_true.mp found
  have ⟨value, offset⟩ := of_decide_eq_true eq
  have built : (word.chainRight minus).Built :=
    .chainRight (.map (.orElse (.text "λ") (.textIgnoringCase "ab")) _) (.map (.character '-') _)
  have ⟨_, _, _, _, inside, _⟩ := built.stays_inside (Cursor.start_valid _ _) mem
  exact ⟨r, mem, value, offset, inside⟩

end Parser

end ExprTree
