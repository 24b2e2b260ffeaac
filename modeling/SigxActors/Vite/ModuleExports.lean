/-
  Vite/ModuleExports.lean --- what a module exports, and what of it the walk of `extractActors` reads.

  Source: `packages/actors/src/vite/extract.ts`.

  What a module exports is what the language says: a pattern binds every name in it, an enum and a
  namespace are values, `export *` exports what the other module does.  The walk knows identifiers,
  functions, classes and specifiers.
-/
import SigxActors.Vite.Extract

set_option autoImplicit false

namespace SigxActors.Vite

open SigxActors.Js

/-! ## What a module exports -/

mutual

def Pattern.boundNames : Pattern → List String
  | .identifier name => [name]
  | .object properties => boundNamesOf properties
  | .array elements => boundNamesOf elements
  | .rest argument => argument.boundNames
  | .assignment left => left.boundNames

def boundNamesOf : List Pattern → List String
  | [] => []
  | p :: rest => p.boundNames ++ boundNamesOf rest

end

/-- The names of an identifier, which the walk reads, and those of a pattern, which it does not. -/
def Pattern.readName : Pattern → Option String
  | .identifier name => some name
  | _ => none

def Pattern.hiddenNames : Pattern → List String
  | .identifier _ => []
  | pattern => pattern.boundNames

/-- The values that a declaration exports. -/
def Declaration.valueNames : Declaration → List String
  | .variable declared declarators =>
      if declared then [] else declarators.flatMap (·.id.boundNames)
  | .function id => id.toList
  | .class declared id => if declared then [] else id.toList
  | .enum declared id => if declared then [] else [id]
  | .namespace instantiated id => if instantiated then [id] else []
  | .importEquals isType id => if isType then [] else [id]
  | .types => []

/-- The names that the walk reads of a declaration. -/
def Declaration.readNames : Declaration → List String
  | .variable _ declarators => declarators.filterMap (·.id.readName)
  | .function id => id.toList
  | .class _ id => id.toList
  | _ => []

/-- The values of which it reads no name. -/
def Declaration.hiddenNames : Declaration → List String
  | .variable declared declarators =>
      if declared then [] else declarators.flatMap (·.id.hiddenNames)
  | .enum declared id => if declared then [] else [id]
  | .namespace instantiated id => if instantiated then [id] else []
  | .importEquals isType id => if isType then [] else [id]
  | _ => []

/-- The names that it reads of what is declared only. -/
def Declaration.ambientNames : Declaration → List String
  | .variable true declarators => declarators.filterMap (·.id.readName)
  | .class true id => id.toList
  | _ => []

/-- The values that an item binds in the module. -/
def ModuleItem.bindings : ModuleItem → List String
  | .imports isType _ specifiers =>
      if isType then []
      else specifiers.filterMap fun
        | .named isType _ localName => if isType then none else some localName
        | .default localName | .star localName => some localName
  | .exportNamed isType (some declaration) _ _ => if isType then [] else declaration.valueNames
  | .declares declaration => declaration.valueNames
  | _ => []

/-- What is exported of the module itself is what it binds; what another module is asked for is a
value, since the modules are compiled one by one. -/
def ExportSpecifier.isValue (bound : List String) (source : Option String)
    (spec : ExportSpecifier) : Bool := source.isSome || decide (spec.localName ∈ bound)

/-- The specifiers that the walk reads. -/
def readSpecifiers (specifiers : List ExportSpecifier) : List ExportSpecifier :=
  specifiers.filter fun spec => !spec.isType

section

variable (exportsOf : String → List String) (bound : List String)

/-- The values that an item exports; `exportsOf` are those that other modules do. -/
def ModuleItem.valueExports : ModuleItem → List String
  | .exportNamed isType declaration specifiers source =>
      if isType then []
      else match declaration with
        | some declaration => declaration.valueNames
        | none => ((readSpecifiers specifiers).filter (·.isValue bound source)).map (·.exported.text)
  | .exportDefault _ => ["default"]
  | .exportAll isType exported source =>
      if isType then []
      else match exported with
        | some name => [name.text]
        | none => (exportsOf source).filter (· ≠ "default")
  | _ => []

/-- Those of which the walk reads no name, and reports no error. -/
def ModuleItem.hiddenExports : ModuleItem → List String
  | .exportNamed isType declaration _ _ =>
      if isType then []
      else match declaration with
        | some declaration => declaration.hiddenNames
        | none => []
  | .exportAll isType exported source =>
      valueExports exportsOf bound (.exportAll isType exported source)
  | _ => []

/-- The names that it reads of what is no value. -/
def ModuleItem.ambientNames : ModuleItem → List String
  | .exportNamed isType declaration specifiers source =>
      if isType then []
      else match declaration with
        | some declaration => declaration.ambientNames
        | none =>
            ((readSpecifiers specifiers).filter (!·.isValue bound source)).map (·.exported.text)
  | _ => []

end

/-- The names that the walk reads of an item. -/
def ModuleItem.readNames : ModuleItem → List String
  | .exportNamed isType declaration specifiers _ =>
      if isType then []
      else match declaration with
        | some declaration => declaration.readNames
        | none => (readSpecifiers specifiers).map (·.exported.text)
  | _ => []

/-- The values that a module exports. -/
def valueExports (exportsOf : String → List String) (body : List ModuleItem) : List String :=
  body.flatMap (ModuleItem.valueExports exportsOf (body.flatMap ModuleItem.bindings))

def hiddenExports (exportsOf : String → List String) (body : List ModuleItem) : List String :=
  body.flatMap (ModuleItem.hiddenExports exportsOf (body.flatMap ModuleItem.bindings))

def ambientNames (body : List ModuleItem) : List String :=
  body.flatMap (ModuleItem.ambientNames (body.flatMap ModuleItem.bindings))

def readNames (body : List ModuleItem) : List String := body.flatMap ModuleItem.readNames

/-! ## Which exports are actors -/

/-- The variables that an item declares, and what they are initialised with. -/
def ModuleItem.initialised : ModuleItem → List (String × Expr)
  | .exportNamed _ (some (.variable _ declarators)) _ _
  | .declares (.variable _ declarators) =>
      declarators.filterMap fun declarator =>
        declarator.id.readName.bind fun name => declarator.init.map fun init => (name, init)
  | _ => []

/-- The exports that an item gives an initialiser: those of a declaration, and of the locals that
specifiers name. -/
def ModuleItem.initialisers (locals : List (String × Expr)) : ModuleItem → List (String × Expr)
  | .exportNamed false (some declaration) specifiers source =>
      (ModuleItem.exportNamed false (some declaration) specifiers source).initialised
  | .exportNamed false none specifiers none =>
      (readSpecifiers specifiers).flatMap fun spec =>
        locals.filterMap fun named =>
          if named.1 = spec.localName then some (spec.exported.text, named.2) else none
  | _ => []

def initialisers (body : List ModuleItem) : List (String × Expr) :=
  body.flatMap (ModuleItem.initialisers (body.flatMap ModuleItem.initialised))

/-- The names of `* as …`, where it is of what `defineActor` is imported from. -/
def starNames (options : ExtractOptions) (body : List ModuleItem) : List String :=
  body.flatMap fun
    | .imports false source specifiers =>
        if source = "@sigx/actors" ∨ options.isDefineSource source then
          specifiers.filterMap fun
            | .star localName => some localName
            | _ => none
        else []
    | _ => []

/-- What is called is `defineActor` or `defineWorker`. -/
def isDefine (options : ExtractOptions) (body : List ModuleItem) : Expr → Bool
  | .identifier name => decide (name ∈ defineNames options body)
  | .member (.identifier name) property =>
      decide (name ∈ starNames options body ∧ (property = "defineActor" ∨ property = "defineWorker"))
  | _ => false

/-- The initialiser is such a call, whatever it is wrapped in. -/
def definesActor (options : ExtractOptions) (body : List ModuleItem) (init : Expr) : Bool :=
  match unwrapTs init with
  | .call _ callee _ => isDefine options body (unwrapTs callee)
  | _ => false

/-- The calls that the walk reads of an item: the name, and the name, the place and the arguments of
the call. -/
def ModuleItem.calls (names : List String) : ModuleItem → List (String × String × Nat × List Expr)
  | .exportNamed false (some (.variable _ declarators)) _ _ =>
      declarators.filterMap fun declarator =>
        declarator.id.readName.bind fun name =>
          (declarator.init.bind (defineCall names)).map fun call => (name, call)
  | _ => []

/-- Those of a module: a declaration that is exported is initialised with the call itself. -/
def actorCalls (options : ExtractOptions) (body : List ModuleItem) :
    List (String × String × Nat × List Expr) :=
  body.flatMap (ModuleItem.calls (defineNames options body))

/-! ## Names that are read, hidden, or declared only -/

theorem mem_boundNames (p : Pattern) (name : String) :
    name ∈ p.boundNames ↔ p.readName = some name ∨ name ∈ p.hiddenNames := by
  cases p with
  | identifier other =>
    rw [Pattern.boundNames, Pattern.readName, Pattern.hiddenNames, List.mem_singleton]
    exact ⟨fun heq => .inl (congrArg some heq.symm),
      fun h => (Option.some.inj (h.resolve_right List.not_mem_nil)).symm⟩
  | object | array | rest | assignment => exact ⟨.inr, fun h => h.resolve_left nofun⟩

/-- How the values that are exported and the names that are read overlap. -/
structure Overlap (values read hidden ambient : List String) : Prop where
  covers : ∀ name ∈ values, name ∈ read ∨ name ∈ hidden
  hides : ∀ name ∈ hidden, name ∈ values
  reads : ∀ name ∈ read, name ∈ values ∨ name ∈ ambient
  declares : ∀ name ∈ ambient, name ∈ read

namespace Overlap

/-- What is read is what is exported. -/
theorem refl (names : List String) : Overlap names names [] [] :=
  ⟨fun _ => .inl, nofun, fun _ => .inl, nofun⟩

theorem hide (names : List String) : Overlap names [] names [] :=
  ⟨fun _ => .inr, fun _ => id, nofun, nofun⟩

theorem nil : Overlap [] [] [] [] := .refl []

theorem declared (names : List String) : Overlap [] names [] names :=
  ⟨nofun, nofun, fun _ => .inr, fun _ => id⟩

theorem flatMap {α : Type} {values read hidden ambient : α → List String} {l : List α}
    (h : ∀ a ∈ l, Overlap (values a) (read a) (hidden a) (ambient a)) :
    Overlap (l.flatMap values) (l.flatMap read) (l.flatMap hidden) (l.flatMap ambient) := by
  refine ⟨fun name hname => ?_, fun name hname => ?_, fun name hname => ?_, fun name hname => ?_⟩
  · obtain ⟨a, ha, hname⟩ := List.mem_flatMap.1 hname
    exact ((h a ha).covers name hname).imp (fun hin => List.mem_flatMap.2 ⟨a, ha, hin⟩)
      fun hin => List.mem_flatMap.2 ⟨a, ha, hin⟩
  · obtain ⟨a, ha, hname⟩ := List.mem_flatMap.1 hname
    exact List.mem_flatMap.2 ⟨a, ha, (h a ha).hides name hname⟩
  · obtain ⟨a, ha, hname⟩ := List.mem_flatMap.1 hname
    exact ((h a ha).reads name hname).imp (fun hin => List.mem_flatMap.2 ⟨a, ha, hin⟩)
      fun hin => List.mem_flatMap.2 ⟨a, ha, hin⟩
  · obtain ⟨a, ha, hname⟩ := List.mem_flatMap.1 hname
    exact List.mem_flatMap.2 ⟨a, ha, (h a ha).declares name hname⟩

/-- The two lists have the same names where nothing is hidden and nothing is declared only. -/
theorem same_iff {values read hidden ambient : List String}
    (h : Overlap values read hidden ambient) : (∀ name, name ∈ read ↔ name ∈ values) ↔
      (∀ name ∈ hidden, name ∈ read) ∧ ∀ name ∈ ambient, name ∈ values := by
  refine ⟨fun hsame => ⟨fun name hname => (hsame name).2 (h.hides name hname),
    fun name hname => (hsame name).1 (h.declares name hname)⟩, fun ⟨hhidden, hambient⟩ name => ?_⟩
  exact ⟨fun hname => (h.reads name hname).elim id (hambient name),
    fun hname => (h.covers name hname).elim id (hhidden name)⟩

end Overlap

theorem Declaration.overlap (d : Declaration) :
    Overlap d.valueNames d.readNames d.hiddenNames d.ambientNames := by
  cases d with
  | «variable» declared declarators =>
    cases declared with
    | true => exact .declared _
    | false =>
      have hbound : ∀ name, name ∈ declarators.flatMap (·.id.boundNames) ↔
          name ∈ declarators.filterMap (·.id.readName) ∨
            name ∈ declarators.flatMap (·.id.hiddenNames) := by
        intro name
        rw [List.mem_flatMap, List.mem_filterMap, List.mem_flatMap, ← exists_or]
        refine exists_congr fun declarator => ?_
        rw [mem_boundNames, and_or_left]
      exact ⟨fun name => (hbound name).1, fun name h => (hbound name).2 (.inr h),
        fun name h => .inl ((hbound name).2 (.inl h)), nofun⟩
  | function id => exact .refl _
  | «class» declared id =>
    cases declared with
    | true => exact .declared _
    | false => exact .refl _
  | «enum» | «namespace» | importEquals => exact .hide _
  | types => exact .nil

theorem specifiers_overlap (bound : List String) (source : Option String)
    (specifiers : List ExportSpecifier) :
    Overlap ((specifiers.filter (·.isValue bound source)).map (·.exported.text))
      (specifiers.map (·.exported.text)) []
      ((specifiers.filter (!·.isValue bound source)).map (·.exported.text)) := by
  refine ⟨fun name h => .inl ?_, nofun, fun name h => ?_, fun name h => ?_⟩
  · obtain ⟨spec, hspec, rfl⟩ := List.mem_map.1 h
    exact List.mem_map_of_mem ((List.mem_filter.1 hspec).1)
  · obtain ⟨spec, hspec, rfl⟩ := List.mem_map.1 h
    cases hvalue : spec.isValue bound source with
    | true => exact .inl (List.mem_map_of_mem (List.mem_filter.2 ⟨hspec, hvalue⟩))
    | false =>
      exact .inr (List.mem_map_of_mem (List.mem_filter.2 ⟨hspec, by rw [hvalue]; rfl⟩))
  · obtain ⟨spec, hspec, rfl⟩ := List.mem_map.1 h
    exact List.mem_map_of_mem ((List.mem_filter.1 hspec).1)

/-- An item that is no default export. -/
theorem ModuleItem.overlap (exportsOf : String → List String) (bound : List String)
    {item : ModuleItem} (hdefault : ∀ start, item ≠ .exportDefault start) :
    Overlap (item.valueExports exportsOf bound) item.readNames (item.hiddenExports exportsOf bound)
      (item.ambientNames bound) := by
  cases item with
  | imports | declares | other => exact .nil
  | exportNamed isType d specifiers source =>
    cases isType with
    | true => exact .nil
    | false =>
      cases d with
      | some d => exact d.overlap
      | none => exact specifiers_overlap bound source (readSpecifiers specifiers)
  | exportDefault start => exact absurd rfl (hdefault start)
  | exportAll isType exported source => exact .hide _

end SigxActors.Vite
