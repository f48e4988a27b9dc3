import Mathlib.Data.List.TakeWhile
import Mathlib.Logic.Function.Basic
import ExprTree.Proofs.Text.Digits
import ExprTree.Ty.Delegate

namespace ExprTree.Ty

def args : Ty → List Ty
  | named _ args => args
  | _ => []

section Name

variable {base : String} {n : Nat} {behind : List Char}

theorem afterBackquote?_eq_none (plain : '\x60' ∉ behind) : afterBackquote? behind = none := by
  induction behind with
  | nil => rfl
  | cons c cs ih =>
    rw [List.mem_cons, not_or] at plain
    simp [afterBackquote?, ih plain.2, Ne.symm plain.1]

theorem afterBackquote?_append (before : List Char) (plain : '\x60' ∉ behind) :
    afterBackquote? (before ++ '\x60' :: behind) = some behind := by
  induction before with
  | nil => simp [afterBackquote?, afterBackquote?_eq_none plain]
  | cons c cs ih => simp [afterBackquote?, ih]

theorem toList_genericName (base : String) (n : Nat) :
    (genericName base n).toList = base.toList ++ '\x60' :: Nat.toDigits 10 n := by
  simp [genericName, Nat.toString_eq_repr, Nat.repr]

theorem nameArity_genericName (base : String) (small : n < 0x10000000000000000) :
    nameArity (genericName base n) = n := by
  have plain : '\x60' ∉ Nat.toDigits 10 n := by
    intro mem
    have digit := Nat.isDigit_of_mem_toDigits (by decide) (by decide) mem
    exact absurd digit (by decide)
  rw [nameArity, toList_genericName, afterBackquote?_append _ plain, Option.bind_some,
    Text.natural?_toDigits small, Option.getD_some]

theorem nameArity_plain (plain : '\x60' ∉ base.toList) : nameArity base = 0 := by
  rw [nameArity, afterBackquote?_eq_none plain]
  rfl

theorem baseName_genericName (plain : '\x60' ∉ base.toList) (n : Nat) :
    baseName (genericName base n) = base := by
  have others : ∀ c ∈ base.toList, (c != '\x60') = true := by
    intro c mem
    exact bne_iff_ne.mpr fun eq => plain (eq ▸ mem)
  rw [baseName, toList_genericName, List.takeWhile_append_of_pos others]
  simp

end Name

section Definition

def actionOver (n : Nat) : String :=
  if n = 0 then actionName else genericName actionName n

theorem plain_func : '\x60' ∉ funcName.toList := by
  decide

theorem plain_action : '\x60' ∉ actionName.toList := by
  decide

theorem baseName_actionOver (n : Nat) : baseName (actionOver n) = actionName := by
  rw [actionOver]
  split
  case isTrue => decide
  case isFalse => exact baseName_genericName plain_action n

theorem nameArity_actionOver {n : Nat} (small : n < 0x10000000000000000) :
    nameArity (actionOver n) = n := by
  rw [actionOver]
  split
  case isTrue zero => rw [zero, nameArity_plain plain_action]
  case isFalse => exact nameArity_genericName actionName small

end Definition

section Signature

variable {t : Ty} {params params' : List Ty} {result result' : Ty}

-- The signature that the base of the name and the arguments tell, whatever arity the name has.
def closed? : Ty → Option Signature
  | named name args =>
    if baseName name = funcName then args.getLast?.map fun result => ⟨args.dropLast, result⟩
    else if baseName name = actionName then some ⟨args, void⟩
    else none
  | _ => none

theorem signature?_eq_closed? (arity : t.arity = t.args.length) : t.signature? = t.closed? := by
  cases t with
  | named name args => exact if_pos arity.symm
  | _ => rfl

theorem delegate_void (params : List Ty) :
    delegate params void = named (actionOver params.length) params := by
  cases params <;> rfl

theorem delegate_of_ne_void (some : result ≠ void) (params : List Ty) :
    delegate params result =
      named (genericName funcName (params.length + 1)) (params ++ [result]) := by
  simp [delegate, some]

theorem closed?_delegate (params : List Ty) (result : Ty) :
    (delegate params result).closed? = some ⟨params, result⟩ := by
  by_cases action : result = void
  case pos =>
    have other : actionName ≠ funcName := by decide
    rw [action, delegate_void, closed?, baseName_actionOver, if_neg other, if_pos rfl]
  case neg =>
    rw [delegate_of_ne_void action, closed?, baseName_genericName plain_func, if_pos rfl,
      List.getLast?_concat, List.dropLast_concat]
    rfl

theorem arity_delegate (small : (delegate params result).args.length < 0x10000000000000000) :
    (delegate params result).arity = (delegate params result).args.length := by
  by_cases action : result = void
  case pos =>
    rw [action, delegate_void] at small ⊢
    exact nameArity_actionOver small
  case neg =>
    rw [delegate_of_ne_void action] at small ⊢
    rw [args, List.length_append, List.length_singleton] at small ⊢
    exact nameArity_genericName funcName small

theorem delegate_injective : Function.Injective2 delegate := by
  intro params params' result result' same
  have signatures : some (Signature.mk params result) = some ⟨params', result'⟩ := by
    rw [← closed?_delegate, ← closed?_delegate, same]
  exact Signature.mk.inj (Option.some.inj signatures)

-- A delegate type tells its parameters and its result, and the arity in its name is the number of
-- its arguments. That number is read as a machine word, into which the length of a list fits; but
-- in any case, different parameters or results make different delegate types.
theorem delegate_roundTrip :
    (∀ params result, (delegate params result).args.length < 2 ^ 64 →
      (delegate params result).signature? = some ⟨params, result⟩ ∧
        (delegate params result).arity = (delegate params result).args.length) ∧
      Function.Injective2 delegate := by
  refine ⟨fun params result small => ?_, delegate_injective⟩
  have arity := arity_delegate small
  exact ⟨(signature?_eq_closed? arity).trans (closed?_delegate params result), arity⟩

theorem delegate_roundTrip_tenParameters :
    let params := List.replicate 10 int
    let function := delegate params (array string)
    let action := delegate params void
    (function.args.length = 11 ∧ action.args.length = 10) ∧
      (function.signature? = some ⟨params, array string⟩ ∧ function.arity = 11) ∧
      (action.signature? = some ⟨params, void⟩ ∧ action.arity = 10) ∧ function ≠ action := by
  intro params function action
  have ⟨tells, injective⟩ := delegate_roundTrip
  refine ⟨⟨rfl, rfl⟩, tells params _ (by decide), tells params _ (by decide), fun same => ?_⟩
  have ⟨_, results⟩ := injective same
  exact absurd results (by decide)

end Signature

end ExprTree.Ty
