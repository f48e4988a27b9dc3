import ExprTree.Cursor
import ExprTree.Results

namespace ExprTree

universe u v w

structure Parsed (σ : Type u) (α : Type v) where
  value : α
  tail  : Cursor σ
deriving DecidableEq

structure Parser (σ : Type u) (α : Type v) where
  run : Cursor σ → Results (Parsed σ α)

namespace Parser

variable {σ : Type u} {α β δ : Type v} {γ : Type w}

def parses (p : Parser σ α) (c : Cursor σ) : List (Parsed σ α) :=
  (p.run c).toList

protected def pure (a : α) : Parser σ α where
  run c := .single ⟨a, c⟩

def fail : Parser σ α where
  run _ := .nil

protected def bind (p : Parser σ α) (f : α → Parser σ β) : Parser σ β where
  run c := (p.run c).flatMap fun r => (f r.value).run r.tail

protected def map (f : α → β) (p : Parser σ α) : Parser σ β where
  run c := (p.run c).map fun r => ⟨f r.value, r.tail⟩

instance : Monad (Parser σ) where
  pure := Parser.pure
  bind := Parser.bind
  map  := Parser.map

instance : Inhabited (Parser σ α) := ⟨fail⟩

def filter (keep : α → Bool) (p : Parser σ α) : Parser σ α where
  run c := (p.run c).filter fun r => keep r.value

def filterMap (f : α → Option γ) (p : Parser σ α) : Parser σ γ where
  run c := (p.run c).filterMap fun r => (f r.value).map fun b => ⟨b, r.tail⟩

def pair (p : Parser σ α) (q : Parser σ β) : Parser σ (α × β) :=
  p.bind fun a => q.map fun b => (a, b)

def append (p q : Parser σ α) : Parser σ α where
  run c := (p.run c).append fun _ => q.run c

def first (p : Parser σ α) : Parser σ α where
  run c := (p.run c).first

protected def orElse (p : Parser σ α) (q : Unit → Parser σ α) : Parser σ α where
  run c :=
    match p.run c with
    | .nil => ((q ()).run c).first
    | .cons r _ => .single r

instance : OrElse (Parser σ α) := ⟨Parser.orElse⟩

-- Keeps the parses whose value is none of the values that `excluded` yields at the same place.
def except [BEq α] (p excluded : Parser σ α) : Parser σ α where
  run c :=
    let values := (excluded.parses c).map (·.value)
    (p.run c).filter fun r => !values.contains r.value

def notFollowedBy (p : Parser σ α) (next : Parser σ γ) : Parser σ α where
  run c := (p.run c).filter fun r => (next.run r.tail).isEmpty

def optional (p : Parser σ α) : Parser σ (Option α) :=
  p.map some <|> Parser.pure none

def between (left : Parser σ β) (p : Parser σ α) (right : Parser σ δ) : Parser σ α :=
  left *> p <* right

def oneOf : List (Parser σ α) → Parser σ α
  | [] => fail
  | [p] => p
  | p :: ps => p <|> oneOf ps

-- Every parse of every alternative, in order.
def allOf : List (Parser σ α) → Parser σ α
  | [] => fail
  | p :: ps => p.append (allOf ps)

section Parses

variable (c : Cursor σ)

@[simp]
theorem parses_pure (a : α) : (pure a : Parser σ α).parses c = [⟨a, c⟩] := rfl

@[simp]
theorem parses_fail : (fail : Parser σ α).parses c = [] := rfl

@[simp]
theorem parses_bind (p : Parser σ α) (f : α → Parser σ β) :
    (p >>= f).parses c = (p.parses c).flatMap fun r => (f r.value).parses r.tail := by
  simp [parses, bind, Parser.bind]

@[simp]
theorem parses_map (f : α → β) (p : Parser σ α) :
    (f <$> p).parses c = (p.parses c).map fun r => ⟨f r.value, r.tail⟩ := by
  simp [parses, Functor.map, Parser.map]

@[simp]
theorem parses_seqRight (p : Parser σ β) (q : Parser σ α) :
    (p *> q).parses c = (p.parses c).flatMap fun r => q.parses r.tail :=
  parses_bind c p fun _ => q

@[simp]
theorem parses_seqLeft (p : Parser σ α) (q : Parser σ β) :
    (p <* q).parses c =
      (p.parses c).flatMap fun r => (q.parses r.tail).map fun s => ⟨r.value, s.tail⟩ := by
  show (p >>= fun a => q >>= fun _ => pure a).parses c = _
  simp [List.map_eq_flatMap]

@[simp]
theorem parses_filter (keep : α → Bool) (p : Parser σ α) :
    (p.filter keep).parses c = (p.parses c).filter fun r => keep r.value := by
  simp [parses, filter]

@[simp]
theorem parses_filterMap (f : α → Option γ) (p : Parser σ α) :
    (p.filterMap f).parses c =
      (p.parses c).filterMap fun r => (f r.value).map fun b => ⟨b, r.tail⟩ := by
  simp [parses, filterMap]

@[simp]
theorem parses_pair (p : Parser σ α) (q : Parser σ β) :
    (p.pair q).parses c =
      (p.parses c).flatMap fun r =>
        (q.parses r.tail).map fun s => ⟨(r.value, s.value), s.tail⟩ := by
  simp [parses, pair, Parser.bind, Parser.map]

@[simp]
theorem parses_append (p q : Parser σ α) :
    (p.append q).parses c = p.parses c ++ q.parses c := by
  simp [parses, append]

@[simp]
theorem parses_first (p : Parser σ α) : p.first.parses c = (p.parses c).take 1 := by
  simp [parses, first]

@[simp]
theorem parses_orElse (p q : Parser σ α) :
    (p <|> q).parses c = (p.parses c ++ q.parses c).take 1 := by
  show (p.orElse fun _ => q).parses c = _
  simp only [parses, Parser.orElse]
  cases p.run c <;> simp

@[simp]
theorem parses_except [BEq α] (p excluded : Parser σ α) :
    (p.except excluded).parses c =
      (p.parses c).filter fun r => !((excluded.parses c).map (·.value)).contains r.value := by
  simp [parses, except]

@[simp]
theorem parses_notFollowedBy (p : Parser σ α) (next : Parser σ γ) :
    (p.notFollowedBy next).parses c =
      (p.parses c).filter fun r => (next.parses r.tail).isEmpty := by
  simp [parses, notFollowedBy]

theorem mem_oneOf {ps : List (Parser σ α)} {r : Parsed σ α} (h : r ∈ (oneOf ps).parses c) :
    ∃ p ∈ ps, r ∈ p.parses c := by
  fun_induction oneOf ps with
  | case1 => simp at h
  | case2 p => exact ⟨p, List.mem_singleton.mpr rfl, h⟩
  | case3 p ps _ ih =>
    rw [parses_orElse] at h
    cases List.mem_append.mp (List.mem_of_mem_take h) with
    | inl mem => exact ⟨p, List.mem_cons_self, mem⟩
    | inr mem =>
      have ⟨q, listed, mem⟩ := ih mem
      exact ⟨q, List.mem_cons_of_mem p listed, mem⟩

end Parses

end Parser

end ExprTree
