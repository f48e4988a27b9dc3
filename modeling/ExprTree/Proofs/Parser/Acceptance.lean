import ExprTree.Proofs.Parser.Relates

namespace ExprTree

universe u v

namespace Parser

variable {σ : Type u} {α β β' γ : Type v} {p p' : Parser σ α} {W : β → β' → Prop}
  {fold : Fold α β} {fold' : Fold α β'} {seed : β} {seed' : β'}

theorem relates_refl (p : Parser σ α) : p.Agrees p Eq Eq := by
  rintro c _ rfl
  exact List.forall₂_same.mpr fun _ _ => ⟨rfl, rfl⟩

theorem Agrees.eq (h : p.Agrees p' Eq Eq) : p = p' := by
  have run : p.run = p'.run := funext fun c =>
    Results.toList_injective (eq_of_related (h c c rfl) fun _ _ => id)
  cases p; cases p'
  exact congrArg Parser.mk run

theorem Relates.agrees {q : Parser σ β} {q' : Parser σ β'} {g : β → β'}
    (h : q.Relates q' Eq Eq (g · = ·)) : (g <$> q).Agrees q' Eq Eq := by
  intro c c' hc
  rw [parses_map]
  exact List.forall₂_map_left_iff.mpr ((h c c' hc).imp fun _ _ hr => ⟨hr.value, hr.tail⟩)

theorem loop_relates (h : Fold.Related W fold fold') (start : W seed seed') (p : Parser σ α)
    (min : Nat) :
    Relates (Repetition.parser ⟨p, fold, min, none⟩ seed)
      (Repetition.parser ⟨p, fold', min, none⟩ seed') Eq Eq W :=
  (relates_refl p).repetition_relates (fun _ _ eq => congrArg Cursor.remaining eq) h min none start

theorem separated_relates (h : Fold.Related W fold fold') (start : W seed seed') (p : Parser σ α)
    (separator : Parser σ γ) :
    (p.separated separator seed fold).Relates (p.separated separator seed' fold') Eq Eq W := by
  intro c c' hc
  rw [separated, separated, parses_bind, parses_bind]
  refine List.rel_flatMap (relates_refl p c c' hc) fun r r' hr => ?_
  have first := h seed seed' r.value start
  rw [← hr.value]
  generalize fold.apply seed r.value = o at first ⊢
  generalize fold'.apply seed' r.value = o' at first ⊢
  cases first with
  | none => exact .nil
  | some acc => exact loop_relates h acc (separator *> p) 0 r.tail r'.tail hr.tail

def push (as : List α) (a : α) : Option (List α) :=
  some (as ++ [a])

theorem accepting_related (f : β → α → β) :
    Fold.Related Eq (.accepting f) (.rejecting fun acc a => some (f acc a)) := by
  rintro acc _ a rfl
  exact .some rfl

theorem push_related :
    Fold.Related (List.reverse · = ·) (.accepting fun acc (a : α) => a :: acc) (.rejecting push) := by
  rintro acc _ a rfl
  exact .some List.reverse_cons

theorem atLeast_eq_repeated (p : Parser σ α) (min : Nat) :
    p.atLeast min = p.repeated min none [] push :=
  (loop_relates push_related List.reverse_nil p min).agrees.eq

-- A fold that refuses nothing yields the same parses in the same order, whether or not the loop
-- keeps a copy of the accumulator for the case of a refusal.
theorem accepting_eq_rejecting (p : Parser σ α) (separator : Parser σ γ) (seed : β)
    (f : β → α → β) :
    p.manyFold seed f = p.repeated 0 none seed (fun acc a => some (f acc a)) ∧
      p.many = p.repeated 0 none [] push ∧
      p.many1 = p.repeated 1 none [] push ∧
      p.separatedBy separator = p.separatedByFold separator [] push := by
  refine ⟨?manyFold, atLeast_eq_repeated p 0, atLeast_eq_repeated p 1, ?separatedBy⟩
  case manyFold => exact Agrees.eq (loop_relates (accepting_related f) rfl p 0)
  case separatedBy => exact (separated_relates push_related List.reverse_nil p separator).agrees.eq

end Parser

end ExprTree
