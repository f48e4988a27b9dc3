import ExprTree.Scope

namespace ExprTree.Scope

variable {s t u : Scope} {d : Symbol} {ds ds' : List Symbol}

theorem eq_of_declare (h : s.declare d = some t) :
    t = { s.withSymbol d with locals := s.locals.push d } := by
  rw [declare] at h
  split at h
  case isTrue => simp at h
  case isFalse => exact (Option.some.inj h).symm

def Declares (s : Scope) (ds : List Symbol) (t : Scope) : Prop :=
  ds.foldlM declare s = some t

namespace Declares

theorem nil (s : Scope) : s.Declares [] s := rfl

theorem cons_iff : s.Declares (d :: ds) t ↔ ∃ u, s.declare d = some u ∧ u.Declares ds t := by
  simp only [Declares, List.foldlM_cons, Option.bind_eq_bind, Option.bind_eq_some_iff]

theorem cons (h : s.declare d = some u) (h' : u.Declares ds t) : s.Declares (d :: ds) t :=
  cons_iff.mpr ⟨u, h, h'⟩

theorem preserves {P : Scope → Prop} (step : ∀ s t, ∀ d ∈ ds, s.declare d = some t → P s → P t)
    (h : s.Declares ds t) (start : P s) : P t := by
  induction ds generalizing s with
  | nil => exact Option.some.inj h ▸ start
  | cons d ds ih =>
    have ⟨u, first, others⟩ := cons_iff.mp h
    have ⟨head, tail⟩ := List.forall_mem_cons.mp fun d mem s t => step s t d mem
    exact ih (fun s t d mem => tail d mem s t) others (head s u first start)

theorem expected_eq (h : s.Declares ds t) : t.expected = s.expected :=
  h.preserves (P := (·.expected = s.expected)) (fun _ _ _ _ step eq => eq_of_declare step ▸ eq) rfl

-- The new locals are the declared symbols, so a scope determines what has been declared.
theorem declared_eq (h : s.Declares ds t) : t.declared = s.declared ++ ds := by
  induction ds generalizing s with
  | nil => simp [Option.some.inj h]
  | cons d ds ih =>
    have ⟨u, first, others⟩ := cons_iff.mp h
    have pushed : u.declared = s.declared ++ [d] := by
      rw [eq_of_declare first]
      exact Stack.inPushOrder_push s.locals d
    rw [ih others, pushed, List.append_assoc, List.singleton_append]

end Declares

theorem enterBlock_declared (s : Scope) : s.enterBlock.declared = [] := rfl

end ExprTree.Scope
