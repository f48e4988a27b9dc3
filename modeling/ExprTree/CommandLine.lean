import ExprTree.Builder.Standard
import ExprTree.Expr.Printer
import ExprTree.Grammar.Unit

namespace ExprTree.CommandLine

structure Options where
  source     : Option String := none
  expected   : Option String := none
  namespaces : List String := []
  vars       : List String := []
  statement  : Bool := false

namespace Options

def withSource (o : Options) (source : String) : Option Options :=
  if o.source.isSome then none else some { o with source := some source }

def withValue (o : Options) (name value : String) : Option Options :=
  match name with
  | "--expected" => if o.expected.isSome then none else some { o with expected := some value }
  | "--namespace" => some { o with namespaces := o.namespaces ++ [value] }
  | "--var" => some { o with vars := o.vars ++ [value] }
  | _ => none

def isDashed (arg : String) : Bool :=
  arg != "-" && arg.toList.head? == some '-'

def splitValue? (arg : String) : Option (String × String) :=
  let cs := arg.toList
  if cs.contains '=' then
    some (String.ofList (cs.takeWhile (· != '=')), String.ofList ((cs.dropWhile (· != '=')).drop 1))
  else none

def read? (o : Options) : List String → Option Options
  | [] => some o
  | "--" :: args => args.foldlM withSource o
  | "--statement" :: args => if o.statement then none else { o with statement := true }.read? args
  | [arg] =>
    if !isDashed arg then o.withSource arg
    else do
      let (name, value) ← splitValue? arg
      o.withValue name value
  | arg :: next :: args =>
    if !isDashed arg then do (← o.withSource arg).read? (next :: args)
    else
      match splitValue? arg with
      | some (name, value) => do (← o.withValue name value).read? (next :: args)
      | none => if isDashed next then none else do (← o.withValue arg next).read? args

end Options

inductive Failure where
  | unknownType (text : String) (cause : ParseError)
  | malformedVariable (declaration : String)
  | invalidVariable (declaration : String) (cause : TypeError)
  | unreadableInput
  | unparsable (cause : ParseError)

namespace Failure

def message : Failure → String
  | unknownType text _ => "unknown type \x60" ++ text ++ "\x60"
  | malformedVariable declaration => "expected \x60type name\x60, got \x60" ++ declaration ++ "\x60"
  | invalidVariable declaration _ => "cannot declare \x60" ++ declaration ++ "\x60"
  | unreadableInput => "failed to read source from stdin"
  | unparsable _ => "failed to parse source"

def cause? : Failure → Option String
  | unknownType _ cause | unparsable cause => some cause.message
  | invalidVariable _ cause => some cause.message
  | unreadableInput => some "stream did not contain valid UTF-8"
  | malformedVariable _ => none

def report (f : Failure) : String :=
  let cause := match f.cause? with
    | some cause => "\nCaused by:\n    " ++ cause ++ "\n"
    | none => ""
  "Error: " ++ f.message ++ "\n" ++ cause

end Failure

def readType (scope : Scope) (text : String) : Except Failure Ty :=
  (parseType text scope).mapError (.unknownType text)

def trimBlanks (cs : List Char) : List Char :=
  ((cs.dropWhile Text.isBlank).reverse.dropWhile Text.isBlank).reverse

-- A type and a name with a blank between them. The name is what stands behind the last blank.
def splitVariable? (declaration : String) : Option (String × String) :=
  let backwards := (trimBlanks declaration.toList).reverse
  match backwards.dropWhile (!Text.isBlank ·) with
  | [] => none
  | _ :: ty =>
    some (String.ofList ty.reverse, String.ofList (backwards.takeWhile (!Text.isBlank ·)).reverse)

def declareVariable (scope : Scope) (declaration : String) : Except Failure Scope :=
  match splitVariable? declaration with
  | none => .error (.malformedVariable declaration)
  | some (ty, name) => do
    let t ← readType scope ty
    let v ← (scope.builder.declare name t).mapError (.invalidVariable declaration)
    return scope.withSymbol v

def systemNamespace : String := "System"

def Options.scope (o : Options) : Except Failure Scope := do
  let registry := (systemNamespace :: o.namespaces).foldl Registry.withNamespace Registry.system
  let scope ← o.vars.foldlM declareVariable (Scope.new registry.resolve Builder.standard)
  match o.expected with
  | none => return scope
  | some text => return scope.withExpected (some (← readType scope text))

def answer (o : Options) (source : String) : Except Failure String := do
  let scope ← o.scope
  let parsed := if o.statement then parseStatement source scope else parseExpression source scope
  let tree ← parsed.mapError .unparsable
  return tree.text ++ "\ntype: " ++ tree.ty.text ++ "\n"

inductive Outcome where
  | success (output : String)
  | failure (report : String)
  | usage

def run (args : List String) (input : Option String) : Outcome :=
  match ({} : Options).read? args with
  | none => .usage
  | some o =>
    match o.source <|> input with
    | none => .failure Failure.unreadableInput.report
    | some source =>
      match answer o source with
      | .ok output => .success output
      | .error f => .failure f.report

end ExprTree.CommandLine
