import Mathlib.Data.List.Infix
import ExprTree.Proofs.Grammar.Depth
import ExprTree.Proofs.Grammar.Rebuilding

namespace ExprTree

open ExprTree.Parser

namespace Ty

-- The types that have a name: the predefined ones, three types of `System`, arrays, and the closed
-- delegate types of up to four or five arguments.
inductive Nameable : Ty → Prop
  | prim (p : Primitive) : Nameable (.prim p)
  | math : Nameable (.named Members.mathName [])
  | type : Nameable systemType
  | action : Nameable (.named actionName [])
  | array {element : Ty} (h : Nameable element) : Nameable (.array element)
  | func {args : List Ty} (h : ∀ t ∈ args, Nameable t) (some : 1 ≤ args.length)
      (arity : args.length ≤ 5) : Nameable (.named (genericName funcName args.length) args)
  | actionOver {args : List Ty} (h : ∀ t ∈ args, Nameable t) (some : 1 ≤ args.length)
      (arity : args.length ≤ 4) : Nameable (.named (genericName actionName args.length) args)

end Ty

open Ty

namespace Registry

def usual (namespaces : List String) : Registry :=
  namespaces.foldl withNamespace system

theorem foldl_withNamespace (r : Registry) (namespaces : List String) :
    namespaces.foldl withNamespace r = { r with namespaces := r.namespaces ++ namespaces } := by
  induction namespaces generalizing r with
  | nil => simp
  | cons ns namespaces ih => simp [ih, withNamespace]

theorem find?_usual (namespaces : List String) (name : String) :
    (usual namespaces).find? name = system.find? name := by
  rw [usual, foldl_withNamespace]
  rfl

theorem resolve_usual {namespaces : List String} {name : String} {t : Ty}
    (h : system.find? name = some t) : (usual namespaces).resolve name = .ok t := by
  rw [resolve, find?_usual, h]

theorem find?_of_resolve {namespaces : List String} {name : String} {t : Ty}
    (h : (usual namespaces).resolve name = .ok t) :
    ∃ key, system.find? key = some t ∧ (key = name ∨ ∃ ns, key = ns ++ "." ++ name) := by
  rw [resolve, find?_usual] at h
  split at h
  case h_1 found => exact ⟨name, Except.ok.inj h ▸ found, .inl rfl⟩
  case h_2 =>
    split at h
    case h_1 found =>
      have ⟨ns, _, found⟩ := List.exists_of_findSome?_eq_some found
      rw [find?_usual] at found
      exact ⟨_, Except.ok.inj h ▸ found, .inr ⟨ns, rfl⟩⟩
    case h_2 => simp at h

-- A generic definition of the registry. Its name is in no namespace but that of the only point, since
-- the backquote stands behind every point.
@[mk_iff]
structure Generic (base : String) (n : Nat) : Prop where
  found     : system.find? (genericName base n) = some (named (genericName base n) [])
  arity     : nameArity (genericName base n) = n
  printed   : baseName (genericName base n) = base
  backquote : ∀ text ∈ (genericName base n).toList.tails, text.head? = some '.' → '\x60' ∈ text

namespace Generic

instance (base : String) (n : Nat) : Decidable (Generic base n) :=
  decidable_of_iff' _ (generic_iff base n)

theorem func {n : Nat} (low : 1 ≤ n) (high : n ≤ 5) : Generic funcName n := by
  have table : ∀ n ∈ List.range' 1 5, Generic funcName n := by decide +kernel
  exact table n (List.mem_range'_1.mpr (by omega))

theorem action {n : Nat} (low : 1 ≤ n) (high : n ≤ 4) : Generic actionName n := by
  have table : ∀ n ∈ List.range' 1 4, Generic actionName n := by decide +kernel
  exact table n (List.mem_range'_1.mpr (by omega))

theorem mem_backquote {base name key : String} {n : Nat} (h : Generic base n)
    (eq : genericName base n = key) (place : key = name ∨ ∃ ns, key = ns ++ "." ++ name) :
    '\x60' ∈ name.toList := by
  cases place with
  | inl same => simp [← same, ← eq, genericName]
  | inr behind =>
    have ⟨ns, behind⟩ := behind
    have suffix : '.' :: name.toList ∈ (genericName base n).toList.tails := by
      refine (List.mem_tails _ _).mpr ⟨ns.toList, ?_⟩
      simp [eq, behind]
    have mem : '\x60' ∈ '.' :: name.toList := h.backquote _ suffix rfl
    simpa using mem

theorem instantiate?_eq {base : String} {n : Nat} (h : Generic base n) (args : List Ty) :
    (named (genericName base n) []).instantiate? args =
      if n = args.length then some (named (genericName base n) args) else none := by
  rw [instantiate?, h.arity]

end Generic

inductive Known : String → Ty → Prop
  | closed {key : String} {t : Ty} (nameable : t.Nameable)
      (plain : ∀ args, args ≠ [] → t.instantiate? args = none) : Known key t
  | generic {base : String} {n : Nat} (h : Generic base n)
      (nameable : ∀ args, args.length = n → (∀ t ∈ args, t.Nameable) →
        (named (genericName base n) args).Nameable) :
      Known (genericName base n) (named (genericName base n) [])

theorem instantiate?_plain {name : String} (h : nameArity name = 0) (args : List Ty)
    (some : args ≠ []) : (named name []).instantiate? args = none := by
  rw [instantiate?, if_neg]
  rw [h]
  exact fun eq => some (List.length_eq_zero_iff.mp eq.symm)

theorem known_of_find? {key : String} {t : Ty} (h : system.find? key = some t) : Known key t := by
  have ⟨before, after, eq, _⟩ := List.lookup_eq_some_iff.mp h
  have mem : (key, t) ∈ system.types := by
    rw [eq]
    exact List.mem_append_right before List.mem_cons_self
  simp only [system, List.mem_append, List.mem_map, List.mem_cons, List.not_mem_nil,
    or_false, definition, Prod.mk.injEq] at mem
  rcases mem with ((⟨p, _, rfl, rfl⟩ | ⟨rfl, rfl⟩ | ⟨rfl, rfl⟩ | ⟨rfl, rfl⟩) | ⟨n, mem, rfl, rfl⟩) |
    ⟨n, mem, rfl, rfl⟩
  · exact .closed (.prim p) fun _ _ => rfl
  · exact .closed .math (instantiate?_plain (by decide))
  · exact .closed .type (instantiate?_plain (by decide))
  · exact .closed .action (instantiate?_plain (by decide))
  · refine .generic (.func (by omega) (by omega)) fun args eq h => ?_
    exact eq ▸ .func h (by omega) (by omega)
  · refine .generic (.action (by omega) (by omega)) fun args eq h => ?_
    exact eq ▸ .actionOver h (by omega) (by omega)

end Registry

open Registry (usual)

namespace Grammar

variable {namespaces : List String} {I : Scope → Prop} {gap rest : List Char}

def Usual (namespaces : List String) (s : Scope) : Prop :=
  s.resolver = (usual namespaces).resolve

section Resolved

variable {s : Scope} {segments : List String} {t : Ty} {ts : List Ty}

theorem resolveNamed_nil (s : Scope) (segments : List String) :
    resolveNamed s segments [] = (s.resolver (dotted segments)).toOption := rfl

theorem resolveNamed_cons (s : Scope) (segments : List String) (t : Ty) (ts : List Ty) :
    resolveNamed s segments (t :: ts) =
      (s.resolver (genericName (dotted segments) (t :: ts).length)).toOption.bind
        fun definition => definition.instantiate? (t :: ts) := rfl

theorem resolveNamed_plain (usual : Usual namespaces s)
    (found : Registry.system.find? (dotted segments) = some t) :
    resolveNamed s segments [] = some t := by
  rw [resolveNamed_nil, usual, Registry.resolve_usual found]
  rfl

theorem resolveNamed_generic (usual : Usual namespaces s)
    (h : Registry.Generic (dotted segments) (t :: ts).length) :
    resolveNamed s segments (t :: ts) =
      some (named (genericName (dotted segments) (t :: ts).length) (t :: ts)) := by
  rw [resolveNamed_cons, usual, Registry.resolve_usual h.found]
  exact (h.instantiate?_eq _).trans (if_pos rfl)

end Resolved

section Read

theorem not_mem_backquote {segments : List String} (h : ∀ name ∈ segments, Identifier name) :
    '\x60' ∉ (dotted segments).toList := by
  have word {name : String} (h : Identifier name) : '\x60' ∉ name.toList := by
    intro mem
    have part := h.parts '\x60' mem
    revert part
    decide
  rw [dotted]
  induction segments with
  | nil => simp
  | cons name segments ih =>
    have ⟨first, others⟩ := List.forall_mem_cons.mp h
    cases segments with
    | nil => simpa using word first
    | cons =>
      rw [String.intercalate_cons_cons]
      simp only [String.toList_append, List.mem_append, not_or]
      exact ⟨⟨word first, by decide⟩, ih others⟩

theorem resolveNamed_nameable {s : Scope} (usual : Usual namespaces s) {segments : List String}
    (h : ∀ name ∈ segments, Identifier name) {args : List Ty} (hargs : ∀ t ∈ args, t.Nameable)
    {t : Ty} (eq : resolveNamed s segments args = some t) : t.Nameable := by
  cases args with
  | nil =>
    rw [resolveNamed_nil, usual] at eq
    have ⟨key, found, place⟩ := Registry.find?_of_resolve (ok_of_toOption eq)
    cases Registry.known_of_find? found with
    | closed nameable plain => exact nameable
    | generic definition _ => exact absurd (definition.mem_backquote rfl place) (not_mem_backquote h)
  | cons u us =>
    rw [resolveNamed_cons, usual] at eq
    have ⟨definition, resolved, closed⟩ := Option.bind_eq_some_iff.mp eq
    have ⟨key, found, _⟩ := Registry.find?_of_resolve (ok_of_toOption resolved)
    cases Registry.known_of_find? found with
    | closed nameable plain => simp [plain (u :: us) (List.cons_ne_nil u us)] at closed
    | generic definition nameable =>
      rw [definition.instantiate?_eq, Option.ite_none_right_eq_some] at closed
      have ⟨length, eq⟩ := closed
      exact Option.some.inj eq ▸ nameable (u :: us) length.symm hargs

theorem typeNameOver_nameable {inner : Rule Ty} (h : inner.Keeps (In (Usual namespaces)) Nameable) :
    (typeNameOver inner).Keeps (In (Usual namespaces)) Nameable := by
  have predefined : predefinedType.Keeps (In (Usual namespaces)) Nameable := by
    refine .oneOf fun p mem => ?_
    have ⟨p, _, eq⟩ := List.mem_map.mp mem
    exact eq ▸ (keeps_of_moves (keyword_moves _)).map fun _ _ => .prim p
  have name := (identifier_keeps (J := Usual namespaces)).separatedBy
    (keeps_of_moves (symbol_moves "."))
  have args := (keeps_of_moves (symbol_moves "<")).between
    (h.separatedBy (keeps_of_moves (symbol_moves ","))) (keeps_of_moves (symbol_moves ">"))
  have named : (namedType inner).Keeps (In (Usual namespaces)) Nameable := by
    refine (name.pair args.optional).filterMapState fun c (segments, args) t hc ⟨words, fits⟩ eq => ?_
    refine resolveNamed_nameable hc words (fun t mem => ?_) eq
    cases args with
    | none => simp at mem
    | some args => exact fits args rfl t mem
  have rank := (keeps_of_moves (J := Usual namespaces) (symbol_moves "[")).seqLeft
    (keeps_of_moves (symbol_moves "]"))
  exact (predefined.orElse named).bind fun t base =>
    rank.manyFold base fun _ _ element _ => .array element

theorem typeNameAt_nameable : (depth : Nat) →
    (typeNameAt depth).Keeps (In (Usual namespaces)) Nameable
  | 0 => fail_keeps
  | depth + 1 => typeNameOver_nameable (typeNameAt_nameable depth)

theorem typeName_nameable : typeName.Keeps (In (Usual namespaces)) Nameable := by
  intro c hc r mem
  rw [parses_typeName] at mem
  exact typeNameAt_nameable _ c hc r mem

end Read

section Printed

def Starts (as : List Char) (text : List Char) : Prop :=
  ∀ a ∈ text.head?, a ∈ as

def behindName : List Char := ['<', '[', ',', '>']

def behindType : List Char := [',', '>']

theorem Starts.not_mem {as text : List Char} {a : Char} (h : Starts as text) (other : a ∉ as) :
    a ∉ text.head? :=
  fun mem => other (h a mem)

theorem Starts.mono {as as' text : List Char} (h : Starts as text) (le : ∀ a ∈ as, a ∈ as') :
    Starts as' text :=
  fun a mem => le a (h a mem)

theorem starts_cons {as : List Char} {a : Char} (h : a ∈ as) (text : List Char) :
    Starts as (a :: text) := by
  rintro _ ⟨⟩
  exact h

theorem Starts.significant (h : Starts behindName rest) : Significant rest := by
  cases rest with
  | nil => exact ⟨nofun, by decide, by decide⟩
  | cons a rest =>
    have table : ∀ a ∈ behindName, Text.isBlank a = false ∧ a ≠ '/' := by decide
    have ⟨blank, slash⟩ := table a (h a rfl)
    exact significant_cons blank slash rest

theorem Starts.apart (h : Starts behindName rest) : Apart rest := by
  have table : ∀ a ∈ behindName, isIdentifierPart a = false := by decide
  exact fun a mem => table a (h a mem)

structure Behind (gap rest : List Char) : Prop where
  spaced      : Gap gap
  significant : Significant rest
  apart       : Apart (gap ++ rest)
  point       : '.' ∉ rest.head?

theorem Starts.behind (h : Starts behindName rest) : Behind [] rest :=
  ⟨.none, h.significant, h.apart, h.not_mem (by decide)⟩

theorem keyword_reserved (p : Primitive) : p.keyword ∈ keywords := by
  have table : ∀ p ∈ Primitive.all, p.keyword ∈ keywords := by decide
  exact table p p.mem_all

theorem predefinedType_takes (p : Primitive) (h : Behind gap rest) :
    predefinedType.Takes I (p.keyword.toList ++ gap) (.prim p) rest := by
  have parts (p : Primitive) := (isWord_of_keyword (keyword_reserved p)).parts
  have read : (keyword p.keyword).Takes I (p.keyword.toList ++ gap) p.keyword rest :=
    keyword_takes h.spaced h.significant h.apart
  refine (read.map fun _ => Ty.prim p).oneOf_only (List.mem_map_of_mem p.mem_all) fun rule mem => ?_
  obtain ⟨p', _, rfl⟩ := List.mem_map.mp mem
  by_cases same : p' = p
  case pos => exact .inl (by rw [same])
  case neg =>
    have other : p.keyword.toList ≠ p'.keyword.toList := by
      intro eq
      have found := p.ofKeyword?_keyword
      rw [String.toList_inj.mp eq, p'.ofKeyword?_keyword] at found
      exact same (Option.some.inj found)
    rw [List.append_assoc]
    exact .inr ((keyword_refuses_word (parts p') (parts p) other h.apart).map _)

theorem predefinedType_refuses (text : List Char) : predefinedType.Refuses I ('S' :: text) := by
  have words : ∀ p ∈ Primitive.all, ∃ y ∈ p.keyword.toList.head?, y ≠ 'S' := by decide
  refine oneOf_refuses fun rule mem => ?_
  obtain ⟨p, listed, rfl⟩ := List.mem_map.mp mem
  have ⟨y, head, other⟩ := words p listed
  have ⟨zs, eq⟩ := List.head?_eq_some_iff.mp head
  refine (keyword_refuses_first eq fun mem => ?_).map _
  obtain rfl := Option.some.inj mem
  exact other rfl

theorem apart_point (rest : List Char) : Apart ('.' :: rest) := by
  rintro _ ⟨⟩
  decide

theorem identifier_takes_namespace (rest : List Char) :
    identifier.Takes I "System".toList "System" ('.' :: rest) := by
  have read : identifier.Takes I ("System".toList ++ []) "System" ('.' :: rest) :=
    identifier_takes (by decide) .none (significant_cons (by decide) (by decide) _)
      (apart_point rest)
  rwa [List.append_nil] at read

theorem path_takes {name : String} (h : Identifier name) (behind : Behind gap rest) :
    path.Takes I ("System".toList ++ '.' :: (name.toList ++ gap)) ["System", name] rest := by
  have first : identifier.Takes I "System".toList "System" ('.' :: (name.toList ++ gap) ++ rest) :=
    identifier_takes_namespace _
  have second : (symbol "." *> identifier).Takes I ('.' :: (name.toList ++ gap)) name ([] ++ rest) :=
    memberName_takes h behind.spaced behind.significant behind.apart
  have none : (symbol "." *> identifier).Refuses I rest :=
    (symbol_refuses (not_prefix_of_head rfl behind.point)).seqRight _
  have others : TakesAll I (symbol "." *> identifier) rest ('.' :: (name.toList ++ gap)) [name] := by
    simpa using TakesAll.cons (List.cons_ne_nil _ _) second (.nil none)
  exact TakesAll.separatedBy first others

theorem toList_dotted (name : String) :
    (dotted ["System", name]).toList = "System".toList ++ '.' :: name.toList := by
  simp [dotted, String.intercalate_cons_cons]

abbrev ranks : Repetition Scope String Ty :=
  ⟨symbol "[" <* symbol "]", .accepting fun t _ => .array t, 0, none⟩

-- A type whose text is read as its name, and may go on as the name of an array of it.
structure Spelled (namespaces : List String) (t : Ty) : Prop where
  start : ∃ a cs, t.text.toList = a :: cs ∧ isIdentifierStart a
  opens : ∀ gap rest, Behind gap rest → '<' ∉ rest.head? →
    (typeNameOver typeName).Opens (Usual namespaces) ranks (t.text.toList ++ gap) t rest

namespace Spelled

variable {t : Ty}

theorem significant (h : Spelled namespaces t) (rest : List Char) :
    Significant (t.text.toList ++ rest) := by
  have ⟨a, cs, eq, start⟩ := h.start
  rw [eq]
  exact significant_of_start start _

theorem takes_gap (h : Spelled namespaces t) (behind : Behind gap rest) (args : '<' ∉ rest.head?)
    (rank : '[' ∉ rest.head?) :
    typeName.Takes (Usual namespaces) (t.text.toList ++ gap) t rest := by
  have none : ranks.item.Refuses (Usual namespaces) rest :=
    (symbol_refuses (not_prefix_of_head rfl rank)).seqLeft _
  have read := (h.opens gap rest behind args).takes rfl rfl none
  exact fun c hc => (typeName_whole hc.valid).trans (read c hc)

theorem takes (h : Spelled namespaces t) (behind : Starts behindType rest) :
    typeName.Takes (Usual namespaces) t.text.toList t rest := by
  have read := h.takes_gap (behind.mono (by decide)).behind (behind.not_mem (by decide))
    (behind.not_mem (by decide))
  rwa [List.append_nil] at read

theorem of_takes {base : List Char} (text : t.text.toList = base)
    (start : ∃ a ∈ base.head?, isIdentifierStart a)
    (h : ∀ gap rest, Behind gap rest → '<' ∉ rest.head? →
      (predefinedType <|> namedType typeName).Takes (Usual namespaces) (base ++ gap) t rest) :
    Spelled namespaces t where
  start := by
    have ⟨a, head, start⟩ := start
    have ⟨cs, eq⟩ := List.head?_eq_some_iff.mp head
    exact ⟨a, cs, text.trans eq, start⟩
  opens gap rest behind args := text ▸ (h gap rest behind args).opens ranks

theorem prim (p : Primitive) : Spelled namespaces (.prim p) := by
  have start : ∀ p ∈ Primitive.all, ∃ a ∈ p.keyword.toList.head?, isIdentifierStart a := by
    decide
  exact .of_takes rfl (start p p.mem_all) fun gap rest behind _ =>
    (predefinedType_takes p behind).orElse_left _

theorem named {base : List Char} (text : t.text.toList = base) (head : 'S' ∈ base.head?)
    (h : ∀ gap rest, Behind gap rest → '<' ∉ rest.head? →
      (namedType typeName).Takes (Usual namespaces) (base ++ gap) t rest) :
    Spelled namespaces t := by
  refine .of_takes text ⟨'S', head, by decide⟩ fun gap rest behind args => ?_
  have ⟨cs, eq⟩ := List.head?_eq_some_iff.mp head
  have refuses : predefinedType.Refuses (Usual namespaces) (base ++ gap ++ rest) := by
    rw [eq]
    exact predefinedType_refuses _
  exact refuses.orElse_takes (h gap rest behind args)

theorem qualified (name : String) (word : Identifier name)
    (text : t.text = dotted ["System", name])
    (found : Registry.system.find? (dotted ["System", name]) = some t) :
    Spelled namespaces t := by
  refine .named ((congrArg String.toList text).trans (toList_dotted name)) rfl
    fun gap rest behind args => ?_
  have args : (typeArguments typeName).Refuses (Usual namespaces) rest :=
    (symbol_refuses (not_prefix_of_head rfl args)).between _ _
  have read := (path_takes word behind).pair (Refuses.optional args)
  rw [List.append_nil] at read
  rw [List.append_assoc, List.cons_append]
  exact read.filterMapState fun s usual => resolveNamed_plain usual found

theorem array (h : Spelled namespaces t) : Spelled namespaces (.array t) := by
  have text : (Ty.array t).text.toList = t.text.toList ++ (['['] ++ [']']) := by simp [Ty.text]
  have ⟨a, cs, eq, start⟩ := h.start
  refine ⟨⟨a, cs ++ ['[', ']'], by simp [text, eq], start⟩, fun gap rest behind _ => ?_⟩
  have inner : Significant (']' :: (gap ++ rest)) :=
    significant_cons (by decide) (by decide) _
  have opening : (symbol "[").Takes (Usual namespaces) ['['] "[" (']' :: gap ++ rest) :=
    symbol_takes "[" .none inner
  have closing : (symbol "]").Takes (Usual namespaces) (']' :: gap) "]" rest :=
    symbol_takes "]" behind.spaced behind.significant
  have element := h.opens [] ('[' :: (']' :: gap) ++ rest)
    (starts_cons (by decide) _ : Starts behindName _).behind (by simp)
  have read := element.step rfl (opening.seqLeft closing) (List.cons_ne_nil _ _) rfl
  rw [text]
  simpa using read

theorem toList_listText (ts : List Ty) :
    (listText ts).toList = furtherItems (fun t => t.text.toList) ts := by
  induction ts with
  | nil => rfl
  | cons t ts ih => simp [listText, furtherItems, ih]

theorem typeArguments_takes {ts : List Ty} (h : ∀ u ∈ t :: ts, Spelled namespaces u)
    (hg : Gap gap) (significant : Significant rest) :
    (typeArguments typeName).Takes (Usual namespaces)
      ('<' :: (t.text ++ listText ts).toList ++ '>' :: gap) (t :: ts) rest := by
  have first := h t List.mem_cons_self
  have opening : (symbol "<").Takes (Usual namespaces) ['<'] "<"
      (t.text.toList ++ (listText ts).toList ++ ('>' :: gap ++ rest)) := by
    rw [List.append_assoc]
    exact symbol_takes "<" .none (first.significant _)
  have closing : (symbol ">").Takes (Usual namespaces) ('>' :: gap) ">" rest :=
    symbol_takes ">" hg significant
  have list : (typeName.separatedBy (symbol ",")).Takes (Usual namespaces)
      (t.text.toList ++ (listText ts).toList) (t :: ts) ('>' :: gap ++ rest) := by
    rw [toList_listText]
    have closed : Starts behindType ('>' :: gap ++ rest) := starts_cons (by decide) _
    have read := items_take id (Starts behindType) (starts_cons (by decide)) closed (by simp)
      (fun u mem => (h u mem).significant) fun u mem text => (h u mem).takes
    rwa [List.map_id] at read
  simpa [typeArguments] using opening.between list closing

-- A closed generic type. The arity that its text lacks is the number of arguments.
theorem closed {name : String} {args : List Ty} (word : Identifier name) (some : 1 ≤ args.length)
    (definition : Registry.Generic (dotted ["System", name]) args.length)
    (h : ∀ t ∈ args, Spelled namespaces t) :
    Spelled namespaces (.named (genericName (dotted ["System", name]) args.length) args) := by
  cases args with
  | nil => simp at some
  | cons t ts =>
    have text : (Ty.named (genericName (dotted ["System", name]) (t :: ts).length) (t :: ts)).text =
        dotted ["System", name] ++ "<" ++ t.text ++ listText ts ++ ">" := by
      rw [Ty.text, definition.printed]
    have print : (Ty.named (genericName (dotted ["System", name]) (t :: ts).length)
        (t :: ts)).text.toList =
          "System".toList ++ '.' :: name.toList ++ ('<' :: (t.text ++ listText ts).toList ++ ['>']) := by
      rw [text]
      simp [toList_dotted]
    refine .named print rfl fun gap rest behind _ => ?_
    have word := path_takes (I := Usual namespaces) word
      (starts_cons (a := '<') (by decide)
        ((t.text ++ listText ts).toList ++ '>' :: gap ++ rest) : Starts behindName _).behind
    have read := word.pair (typeArguments_takes h behind.spaced behind.significant).optional
    have pieces : "System".toList ++ '.' :: name.toList ++
        ('<' :: (t.text ++ listText ts).toList ++ ['>']) ++ gap =
          "System".toList ++ '.' :: (name.toList ++ []) ++
            ('<' :: (t.text ++ listText ts).toList ++ '>' :: gap) := by
      simp
    rw [pieces]
    exact read.filterMapState fun s usual => resolveNamed_generic usual definition

end Spelled

theorem spelled_of_nameable {t : Ty} (h : t.Nameable) : Spelled namespaces t := by
  induction h with
  | prim p => exact .prim p
  | math => exact .qualified "Math" (by decide) (by decide) (by decide)
  | type => exact .qualified "Type" (by decide) (by decide) (by decide)
  | action => exact .qualified "Action" (by decide) (by decide) (by decide)
  | array _ ih => exact ih.array
  | func _ some arity ih =>
    have name : funcName = dotted ["System", "Func"] := by decide
    have definition := Registry.Generic.func some arity
    rw [name] at definition ⊢
    exact .closed (by decide) some definition ih
  | actionOver _ some arity ih =>
    have name : actionName = dotted ["System", "Action"] := by decide
    have definition := Registry.Generic.action some arity
    rw [name] at definition ⊢
    exact .closed (by decide) some definition ih

end Printed

-- With the usual registry, whatever namespaces may be left out, the text of a type that has a name is
-- read in one way, as this type, and up to its end; and whatever is read as the name of a type is a
-- type that has a name.
theorem typeName_roundTrip {namespaces : List String} {s : Scope}
    (usual : s.resolver = (namespaces.foldl Registry.withNamespace .system).resolve) :
    (∀ t : Ty, t.Nameable →
      typeName.parses (.start t.text s) = [⟨t, ⟨t.text, t.text.utf8ByteSize, [], s⟩⟩]) ∧
    ∀ c : Cursor Scope, c.state = s → ∀ r ∈ typeName.parses c, r.value.Nameable := by
  constructor
  case left =>
    intro t h
    have start : (Cursor.start t.text s).At (Usual namespaces) (t.text.toList ++ []) :=
      ⟨Cursor.start_valid _ _, usual, (List.append_nil _).symm⟩
    have read : typeName.Takes (Usual namespaces) t.text.toList t [] :=
      (spelled_of_nameable h).takes nofun
    rw [read _ start]
    simp [Cursor.drop, Cursor.start, byteSize_toList]
  case right =>
    rintro c rfl r mem
    exact (typeName_nameable c usual r mem).1

theorem typeName_roundTrip_nested :
    let s := Scope.new (["System", "Demo"].foldl Registry.withNamespace .system).resolve .standard
    let action := named (genericName actionName 1) [.string]
    let t := named (genericName funcName 2) [.array .int, action]
    t.text = "System.Func<int[], System.Action<string>>" ∧
      typeName.parses (.start t.text s) = [⟨t, ⟨t.text, t.text.utf8ByteSize, [], s⟩⟩] ∧
      (typeName.parses (.start "Action<string>" s)).map Parsed.value = [action] ∧
      ∀ r ∈ typeName.parses (.start "Action<string>" s), r.value.Nameable := by
  intro s action t
  have inner : action.Nameable :=
    @Nameable.actionOver [.string] (by simpa using .prim .string) (by decide) (by decide)
  have outer : t.Nameable :=
    @Nameable.func [.array .int, action] (by simpa using ⟨.array (.prim .int), inner⟩) (by decide)
      (by decide)
  have usual : s.resolver =
      (["System", "Demo"].foldl Registry.withNamespace Registry.system).resolve := rfl
  have ⟨read, nameable⟩ := typeName_roundTrip usual
  exact ⟨by decide +kernel, read t outer, by decide +kernel,
    nameable (.start "Action<string>" s) rfl⟩

end Grammar

end ExprTree
