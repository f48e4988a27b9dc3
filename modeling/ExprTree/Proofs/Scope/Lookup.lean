import ExprTree.Proofs.AvlMap.Refinement
import ExprTree.Proofs.Scope

namespace ExprTree.Scope

variable {s t : Scope} {v : Symbol} {ds params : List Symbol} {name : String}

-- The scopes that can be made.
inductive Reachable : Scope → Prop
  | new (resolver : Resolver) (builder : Builder) : Reachable (.new resolver builder)
  | withExpected {s : Scope} (h : Reachable s) (expected : Option Ty) :
      Reachable (s.withExpected expected)
  | withSymbol {s : Scope} (h : Reachable s) (v : Symbol) : Reachable (s.withSymbol v)
  | declare {s t : Scope} {v : Symbol} (h : Reachable s) (declared : s.declare v = some t) :
      Reachable t
  | enterBlock {s : Scope} (h : Reachable s) : Reachable s.enterBlock
  | enterLambda {s t : Scope} {params : List Symbol} {result : Option Ty} (h : Reachable s)
      (entered : s.enterLambda params result = some t) : Reachable t

structure Keyed (s : Scope) : Prop where
  invariant : s.symbols.Invariant
  named     : ∀ name v, s.lookup name = some v → v.name = name

theorem enterLambda_eq {result : Option Ty} (entered : s.enterLambda params result = some t) :
    ∃ u, s.enterBlock.Declares params u ∧ t = u.withExpected result := by
  have ⟨u, declares, eq⟩ := Option.map_eq_some_iff.mp entered
  exact ⟨u, declares, eq.symm⟩

namespace Keyed

theorem lookup_withSymbol (h : s.Keyed) (v : Symbol) (name : String) :
    (s.withSymbol v).lookup name = if name = v.name then some v else s.lookup name :=
  congrFun (h.invariant.get?_replace v.name v) name

theorem new (resolver : Resolver) (builder : Builder) : (Scope.new resolver builder).Keyed where
  invariant := .empty
  named := nofun

theorem withExpected (h : s.Keyed) (expected : Option Ty) : (s.withExpected expected).Keyed :=
  ⟨h.invariant, h.named⟩

theorem enterBlock (h : s.Keyed) : s.enterBlock.Keyed :=
  ⟨h.invariant, h.named⟩

theorem withSymbol (h : s.Keyed) (v : Symbol) : (s.withSymbol v).Keyed where
  invariant := h.invariant.replace v.name v
  named name w found := by
    rw [h.lookup_withSymbol] at found
    split at found
    case isTrue eq => rw [eq, Option.some.inj found]
    case isFalse => exact h.named name w found

theorem declare (h : s.Keyed) (declared : s.declare v = some t) : t.Keyed := by
  rw [eq_of_declare declared]
  exact ⟨(h.withSymbol v).invariant, (h.withSymbol v).named⟩

theorem declares (h : s.Keyed) (declared : s.Declares ds t) : t.Keyed :=
  declared.preserves (fun _ _ _ _ step keyed => keyed.declare step) h

end Keyed

theorem Reachable.keyed (h : s.Reachable) : s.Keyed := by
  induction h with
  | new resolver builder => exact .new resolver builder
  | withExpected _ expected ih => exact ih.withExpected expected
  | withSymbol _ v ih => exact ih.withSymbol v
  | declare _ declared ih => exact ih.declare declared
  | enterBlock _ ih => exact ih.enterBlock
  | enterLambda _ entered ih =>
    have ⟨u, declares, eq⟩ := enterLambda_eq entered
    exact eq ▸ (ih.enterBlock.declares declares).withExpected _

namespace Declares

theorem builder_eq (h : s.Declares ds t) : t.builder = s.builder :=
  h.preserves (P := (·.builder = s.builder)) (fun _ _ _ _ step eq => eq_of_declare step ▸ eq) rfl

protected theorem trans {u : Scope} {ds' : List Symbol} (h : s.Declares ds t)
    (h' : t.Declares ds' u) : s.Declares (ds ++ ds') u := by
  rw [Declares, List.foldlM_append]
  exact Option.bind_eq_some_iff.mpr ⟨t, h, h'⟩

theorem lookup_eq (h : s.Declares ds t) (keyed : s.Keyed) (name : String) :
    t.lookup name = (ds.reverse.find? (·.name = name)).or (s.lookup name) := by
  induction ds generalizing s with
  | nil => rw [Option.some.inj h]; rfl
  | cons d ds ih =>
    have ⟨u, first, others⟩ := cons_iff.mp h
    have found : u.lookup name = if name = d.name then some d else s.lookup name := by
      rw [eq_of_declare first]
      exact keyed.lookup_withSymbol d name
    rw [ih others (keyed.declare first), found, List.reverse_cons, List.find?_append,
      Option.or_assoc]
    congr 1
    by_cases eq : d.name = name
    case pos => simp [eq]
    case neg => simp [eq, Ne.symm eq]

theorem lookup_cases (h : s.Declares ds t) (keyed : s.Keyed) (found : t.lookup name = some v) :
    v ∈ ds ∧ v.name = name ∨ s.lookup name = some v := by
  rw [h.lookup_eq keyed, Option.or_eq_some_iff] at found
  cases found with
  | inl found =>
    have mem := List.mem_reverse.mp (List.mem_of_find?_eq_some found)
    exact .inl ⟨mem, by simpa using List.find?_some found⟩
  | inr found => exact .inr found.2

-- A name is never declared twice in one block.
theorem distinct (h : s.Declares ds t) (start : (s.declared.map (·.name)).Nodup) :
    (t.declared.map (·.name)).Nodup := by
  refine h.preserves (P := fun s => (s.declared.map (·.name)).Nodup) ?_ start
  intro s t d _ declared nodup
  have fresh : d.name ∉ s.declared.map (·.name) := by
    intro mem
    rw [Scope.declare, if_pos] at declared
    · simp at declared
    · simpa [Scope.declared, Stack.inPushOrder] using mem
  rw [(cons declared (nil t)).declared_eq, List.map_append, List.nodup_append]
  refine ⟨nodup, by simp, fun name mem other listed eq => fresh ?_⟩
  rw [List.map_singleton, List.mem_singleton] at listed
  exact listed ▸ eq ▸ mem

theorem distinct_of_enterBlock (h : s.enterBlock.Declares ds t) : (ds.map (·.name)).Nodup := by
  have nodup := h.distinct (by rw [enterBlock_declared]; exact List.nodup_nil)
  rwa [h.declared_eq, enterBlock_declared, List.nil_append] at nodup

end Declares

end ExprTree.Scope
