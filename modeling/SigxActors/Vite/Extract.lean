/-
  Vite/Extract.lean --- what the build reads of an actor module, and the client module it puts in its
  place.

  Source: `packages/actors/src/vite/extract.ts` (`unwrapTs`, `extractActors`, `literalKeys`,
  `streamTableExpression`).

  A module is the tree that the parser returns, with the kinds of nodes that are told apart and, of
  the others, that they are others.  What the loops push to several lists is read off one list here.
  The client module is the list of its lines.
-/
import SigxActors.Js.Map

set_option autoImplicit false

namespace SigxActors.Vite

open SigxActors.Js

/-! ## The syntax tree -/

/-- What TypeScript wraps an expression in, and parentheses. -/
inductive TsWrapper where
  | asExpression
  | satisfies
  | typeAssertion
  | nonNull
  | parenthesized
  deriving DecidableEq, Repr

mutual

inductive Expr where
  | identifier (name : String)
  /-- A `Literal` of a string. -/
  | string (value : String)
  /-- A `Literal` of a boolean. -/
  | boolean (value : Bool)
  /-- Another `Literal`. -/
  | literal
  | array (size : Nat)
  | object (properties : List Property)
  | call (start : Nat) (callee : Expr) (arguments : List Expr)
  /-- A property that is named. -/
  | member (object : Expr) (property : String)
  /-- An arrow function or a function expression. -/
  | function (body : FunctionBody)
  | wrapped (wrapper : TsWrapper) (expression : Expr)
  | other

inductive Property where
  /-- A `Property`: a value, a method or an accessor. -/
  | property (start : Nat) (key : Expr) (computed : Bool) (value : Expr)
  | spread (start : Nat)

inductive FunctionBody where
  | expression (body : Expr)
  | block (statements : List BodyStatement)

inductive BodyStatement where
  | returns (argument : Option Expr)
  | other

end

/-- What a declaration binds. -/
inductive Pattern where
  | identifier (name : String)
  | object (properties : List Pattern)
  | array (elements : List Pattern)
  | rest (argument : Pattern)
  /-- A pattern with a default. -/
  | assignment (left : Pattern)

structure Declarator where
  id : Pattern
  init : Option Expr

inductive Declaration where
  | variable (declared : Bool) (declarators : List Declarator)
  | function (id : Option String)
  | class (declared : Bool) (id : Option String)
  | enum (declared : Bool) (id : String)
  /-- A namespace, and whether there is anything but types in it. -/
  | namespace (instantiated : Bool) (id : String)
  /-- `import id = …`. -/
  | importEquals (isType : Bool) (id : String)
  /-- An interface, an alias, the signature of a function. -/
  | types

/-- What stands behind `as`. -/
inductive ExportName where
  | identifier (name : String)
  | string (value : String)
  deriving DecidableEq, Repr

def ExportName.text : ExportName → String
  | .identifier name => name
  | .string value => value

structure ExportSpecifier where
  isType : Bool
  localName : String
  exported : ExportName

inductive ImportSpecifier where
  | named (isType : Bool) (imported localName : String)
  | default (localName : String)
  /-- `* as …`. -/
  | star (localName : String)

/-- A node of the body of a module. -/
inductive ModuleItem where
  | imports (isType : Bool) (source : String) (specifiers : List ImportSpecifier)
  | exportNamed (isType : Bool) (declaration : Option Declaration)
      (specifiers : List ExportSpecifier) (source : Option String)
  | exportDefault (start : Nat)
  /-- `export * from`, and `export * as … from`. -/
  | exportAll (isType : Bool) (exported : Option ExportName) (source : String)
  /-- A declaration that is not exported. -/
  | declares (declaration : Declaration)
  | other

/-! ## Reading an actor -/

structure ExtractedActor where
  exportName : String
  type : String
  streams : List String
  reads : List String
  authorized : Bool
  anonymous : Bool
  worker : Bool
  internal : Bool
  offset : Nat
  deriving DecidableEq, Repr

structure ExtractError where
  message : String
  offset : Nat
  deriving DecidableEq, Repr

inductive RequireAuthorization where
  | on
  | off
  | warn
  deriving DecidableEq, Repr

structure ExtractOptions where
  endpoint : String
  requireAuthorization : RequireAuthorization := .on
  hasServerApp : Bool := false
  isDefineSource : String → Bool := fun _ => false

/-- `unwrapTs`. -/
def unwrapTs : Expr → Expr
  | .wrapped _ expression => unwrapTs expression
  | e => e

/-- `key?.name ?? key?.value`, where it is a string. -/
def keyName : Expr → Option String
  | .identifier name => some name
  | .string value => some value
  | _ => none

/-- A property of the options object. -/
structure OptionProp where
  start : Nat
  value : Expr

/-- What the walk of the properties does with one. -/
def setOption (props : JsMap String OptionProp) : Property → JsMap String OptionProp
  | .property start key _ value =>
      match keyName key with
      | some name => props.set name ⟨start, value⟩
      | none => props
  | .spread _ => props

def optionsOf (properties : List Property) : JsMap String OptionProp :=
  properties.foldl setOption .empty

/-- The first statement that returns. -/
def returnedObject : List BodyStatement → Option (List Property)
  | [] => none
  | .returns (some (.object properties)) :: _ => some properties
  | .returns _ :: _ => none
  | .other :: rest => returnedObject rest

/-- `streamTableExpression`. -/
def streamTableExpression : Expr → Option (List Property)
  | .function (.expression (.object properties)) => some properties
  | .function (.block statements) => returnedObject statements
  | _ => none

/-- `export "…": …`. -/
def exportMessage (exportName message : String) : String :=
  "export \"" ++ exportName ++ "\": " ++ message

/-- `literalKeys`. -/
def literalKeys (what exportName : String) : List Property → Except ExtractError (List String)
  | [] => .ok []
  | entry :: rest =>
      let refused (start : Nat) : Except ExtractError (List String) := .error
        { message := exportMessage exportName ("every `" ++ what ++ "` key must be a plain name or " ++
            "string literal — a computed key or spread cannot be read statically, and " ++
            "the browser bundle needs these names")
          offset := start }
      match entry with
      | .property start key computed _ =>
          match if computed then none else keyName key with
          | some name => (literalKeys what exportName rest).map (name :: ·)
          | none => refused start
      | .spread start => refused start

/-- The names of the `streams:` table. -/
def readStreams (exportName : String) : Option OptionProp → Except ExtractError (List String)
  | none => .ok []
  | some prop =>
      match streamTableExpression prop.value with
      | some table => literalKeys "streams" exportName table
      | none => .error
          { message := exportMessage exportName ("`streams` must be a factory returning an " ++
              "inline object literal, so stream method names are statically readable")
            offset := prop.start }

/-- The names of the `reads:` table. -/
def readReads (exportName : String) : Option OptionProp → Except ExtractError (List String)
  | none => .ok []
  | some prop =>
      match prop.value with
      | .object table => literalKeys "reads" exportName table
      | _ => .error
          { message := exportMessage exportName ("`reads` must be an inline object literal, so " ++
              "the cacheable method names are statically readable")
            offset := prop.start }

/-- The value is the literal `true`. -/
def isTrue (prop : Option OptionProp) : Bool :=
  match prop.map fun prop => unwrapTs prop.value with
  | some (.boolean true) => true
  | _ => false

/-- An `authorize` that is there, and is not the empty array. -/
def isAuthorized : Option OptionProp → Bool
  | none => false
  | some prop =>
      match unwrapTs prop.value with
      | .array 0 => false
      | _ => true

/-- `readActor`. -/
def readActor (exportName : String) (start : Nat) (arguments : List Expr) (worker : Bool) :
    Except ExtractError ExtractedActor :=
  match arguments.head? with
  | some (.object properties) =>
      let props := optionsOf properties
      let badType (offset : Nat) : Except ExtractError ExtractedActor := .error
        { message := exportMessage exportName ("`type` must be a string literal — it is the " ++
            "actor's wire and storage identity and the build reads it statically")
          offset := offset }
      match props.get "type" with
      | none => badType start
      | some typeProp =>
          match typeProp.value with
          | .string type => do
              let streams ← readStreams exportName (props.get "streams")
              let reads ← readReads exportName (props.get "reads")
              return {
                exportName := exportName, type := type, streams := streams, reads := reads
                authorized := isAuthorized (props.get "authorize")
                anonymous := isTrue (props.get "allowAnonymous")
                worker := worker
                internal := isTrue (props.get "internal")
                offset := start }
          | _ => badType typeProp.start
  | _ => .error
      { message := exportMessage exportName "defineActor needs an inline options object"
        offset := start }

/-! ## The walk -/

/-- The specifiers by which an item imports `defineActor` or `defineWorker`: what is imported, and
the name under which. -/
def defineSpecifiers (options : ExtractOptions) : ModuleItem → List (String × String)
  | .imports isType source specifiers =>
      if (source ≠ "@sigx/actors" ∧ options.isDefineSource source = false) ∨ isType then []
      else specifiers.filterMap fun
        | .named isType imported localName =>
            if isType = false ∧ (imported = "defineActor" ∨ imported = "defineWorker") then
              some (imported, localName)
            else none
        | .default _ | .star _ => none
  | _ => []

def defineNames (options : ExtractOptions) (body : List ModuleItem) : List String :=
  (body.flatMap (defineSpecifiers options)).map (·.2)

def workerNames (options : ExtractOptions) (body : List ModuleItem) : List String :=
  ((body.flatMap (defineSpecifiers options)).filter (·.1 = "defineWorker")).map (·.2)

/-- What the walk pushes. -/
inductive Reading where
  | actor (actor : ExtractedActor)
  | other (name : String)
  | error (error : ExtractError)

namespace Reading

def actor? : Reading → Option ExtractedActor
  | .actor read => some read
  | _ => none

def other? : Reading → Option String
  | .other name => some name
  | _ => none

def error? : Reading → Option ExtractError
  | .error met => some met
  | _ => none

end Reading

/-- A call of one of the imports. -/
def defineCall (names : List String) : Expr → Option (String × Nat × List Expr)
  | .call start (.identifier callee) arguments =>
      if callee ∈ names then some (callee, start, arguments) else none
  | _ => none

/-- The body of the loop over the declarators. -/
def readDeclarator (names workers : List String) (declarator : Declarator) : Option Reading :=
  match declarator.id with
  | .identifier name =>
      match declarator.init.bind (defineCall names) with
      | some (callee, start, arguments) =>
          match readActor name start arguments (decide (callee ∈ workers)) with
          | .ok actor => some (.actor actor)
          | .error error => some (.error error)
      | none => some (.other name)
  | _ => none

/-- The body of the loop over the module. -/
def readItem (names workers : List String) : ModuleItem → List Reading
  | .exportDefault start =>
      [.error
        { message := "default exports are not supported in actor modules — use a named " ++
            "`export const`"
          offset := start }]
  | .exportNamed isType declaration specifiers _ =>
      if isType then []
      else
        match declaration with
        | some (.variable _ declarators) => declarators.filterMap (readDeclarator names workers)
        | some (.function id) => id.toList.map .other
        | some (.class _ id) => id.toList.map .other
        | some _ => []
        | none => specifiers.filterMap fun spec =>
            if spec.isType then none else some (.other spec.exported.text)
  | _ => []

/-! ## The gate and the client module -/

/-- `actor "…" declares no …`. -/
def gateMessage (actor : ExtractedActor) : String :=
  "actor \"" ++ actor.type ++ "\" declares no `authorize:` policy. Add one, mark it " ++
    "`allowAnonymous: true` if it is deliberately reachable without a principal, " ++
    "or configure an app default with createServerApp(\x7b authorize \x7d). " ++
    "(requireAuthorization is on by default; set " ++
    "requireAuthorization: 'warn' | false on sigxActors() to downgrade.)"

/-- The actors whose access is not decided. -/
def undecided (options : ExtractOptions) (actors : List ExtractedActor) : List ExtractedActor :=
  if options.requireAuthorization ≠ .off ∧ options.hasServerApp = false then
    actors.filter fun actor => !actor.authorized && !actor.anonymous
  else []

/-- A line of the client module. -/
inductive ClientLine where
  /-- The import of `__actorRef`. -/
  | header
  /-- The import of `__serverOnly`. -/
  | importServerOnly
  /-- `export const … = __actorRef(…)`, with the arguments that are emitted. -/
  | actorRef (exportName type endpoint : String) (streams reads : Option (List String))
      (worker : Bool)
  /-- `export const … = __serverOnly(…)`. -/
  | serverOnly (exportName file : String)
  deriving DecidableEq, Repr

/-- The line of an actor. -/
def actorLine (file : String) (options : ExtractOptions) (actor : ExtractedActor) : ClientLine :=
  if actor.internal then .serverOnly actor.exportName file
  else
    let withReads := !actor.reads.isEmpty || actor.worker
    let withStreams := !actor.streams.isEmpty || withReads
    .actorRef actor.exportName actor.type options.endpoint
      (if withStreams then some actor.streams else none)
      (if withReads then some actor.reads else none) actor.worker

def clientLines (file : String) (options : ExtractOptions) (actors : List ExtractedActor)
    (otherExports : List String) : List ClientLine :=
  .header ::
    ((if otherExports ≠ [] ∨ actors.any (·.internal) then [.importServerOnly] else []) ++
      actors.map (actorLine file options) ++
      otherExports.map fun name => .serverOnly name file)

structure ActorExtraction where
  actors : List ExtractedActor
  otherExports : List String
  errors : List ExtractError
  warnings : List String
  clientModule : Option (List ClientLine)
  deriving DecidableEq, Repr

/-- `extractActors`, of the body of a module. -/
def extractActors (file : String) (options : ExtractOptions) (body : List ModuleItem) :
    ActorExtraction :=
  let readings := body.flatMap (readItem (defineNames options body) (workerNames options body))
  let actors := readings.filterMap Reading.actor?
  let otherExports := readings.filterMap Reading.other?
  let undecided := undecided options actors
  let warns := options.requireAuthorization = .warn
  let errors := readings.filterMap Reading.error? ++
    if warns then [] else undecided.map fun actor => ⟨gateMessage actor, actor.offset⟩
  { actors := actors, otherExports := otherExports, errors := errors
    warnings := if warns then undecided.map gateMessage else []
    clientModule := if errors = [] then some (clientLines file options actors otherExports) else none }

end SigxActors.Vite
