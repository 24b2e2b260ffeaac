/-
  Vite/ExtractCovers.lean --- when the client module covers the module that it stands for.

  Source: `packages/actors/src/vite/extract.ts`.
-/
import SigxActors.Vite.ModuleExports
import Mathlib.Data.List.Basic

set_option autoImplicit false

namespace SigxActors.Vite

open SigxActors.Js

/-! ## The options -/

/-- The options that are read. -/
def optionNames : List String :=
  ["type", "authorize", "allowAnonymous", "internal", "streams", "reads"]

/-- A property of that name which is not computed. -/
def Plain (properties : List Property) (name : String) : Prop :=
  ∃ start key value, Property.property start key false value ∈ properties ∧ keyName key = some name

/-- A computed one whose key looks like the name. -/
def LooksComputed (properties : List Property) (name : String) : Prop :=
  ∃ start key value, Property.property start key true value ∈ properties ∧ keyName key = some name

theorem get_setOption (p : Property) (props : JsMap String OptionProp) (name : String) :
    ((setOption props p).get name).isSome = true ↔ (props.get name).isSome = true ∨
      ∃ start key computed value, p = .property start key computed value ∧ keyName key = some name := by
  cases p with
  | spread start => exact ⟨.inl, fun h => h.resolve_right nofun⟩
  | property start key computed value =>
    have hkey : (∃ start' key' computed' value', Property.property start key computed value =
        .property start' key' computed' value' ∧ keyName key' = some name) ↔
          keyName key = some name := by
      refine ⟨?_, fun h => ⟨_, _, _, _, rfl, h⟩⟩
      rintro ⟨_, _, _, _, ⟨⟩, h⟩
      exact h
    rw [hkey]
    unfold setOption
    dsimp only
    split
    · rename_i other hother
      rw [hother, JsMap.get_set]
      split
      · rename_i heq
        exact iff_of_true rfl (.inr (congrArg some heq.symm))
      · rename_i hne
        exact ⟨.inl, fun h => h.resolve_right fun heq => hne (Option.some.inj heq).symm⟩
    · rename_i hnone
      rw [hnone]
      exact ⟨.inl, fun h => h.resolve_right nofun⟩

/-- An option is there where a property has its name, computed or not. -/
theorem get_optionsOf (name : String) (properties : List Property) :
    ((optionsOf properties).get name).isSome = true ↔
      Plain properties name ∨ LooksComputed properties name := by
  have hfold : ∀ (rest : List Property) (props : JsMap String OptionProp),
      ((rest.foldl setOption props).get name).isSome = true ↔ (props.get name).isSome = true ∨
        ∃ start key computed value, Property.property start key computed value ∈ rest ∧
          keyName key = some name := by
    intro rest
    induction rest with
    | nil =>
      intro props
      refine ⟨.inl, fun h => h.resolve_right ?_⟩
      rintro ⟨_, _, _, _, h, -⟩
      cases h
    | cons p rest ih =>
      intro props
      rw [List.foldl_cons, ih, get_setOption, or_assoc]
      refine or_congr_right ⟨?_, ?_⟩
      · rintro (⟨start, key, computed, value, rfl, hkey⟩ | ⟨start, key, computed, value, hin, hkey⟩)
        · exact ⟨start, key, computed, value, List.mem_cons_self, hkey⟩
        · exact ⟨start, key, computed, value, List.mem_cons_of_mem _ hin, hkey⟩
      · rintro ⟨start, key, computed, value, hin, hkey⟩
        rcases List.mem_cons.1 hin with rfl | hin
        · exact .inl ⟨start, key, computed, value, rfl, hkey⟩
        · exact .inr ⟨start, key, computed, value, hin, hkey⟩
  unfold optionsOf
  rw [hfold]
  have hempty : ((JsMap.empty : JsMap String OptionProp).get name).isSome = true ↔ False :=
    iff_of_false nofun id
  rw [hempty, false_or]
  refine ⟨?_, ?_⟩
  · rintro ⟨start, key, computed, value, hin, hkey⟩
    cases computed with
    | false => exact .inl ⟨start, key, value, hin, hkey⟩
    | true => exact .inr ⟨start, key, value, hin, hkey⟩
  · rintro (⟨start, key, value, hin, hkey⟩ | ⟨start, key, value, hin, hkey⟩)
    · exact ⟨start, key, false, value, hin, hkey⟩
    · exact ⟨start, key, true, value, hin, hkey⟩

/-! ## What the walk pushes -/

/-- An actor is pushed under the name that it is read for. -/
theorem readActor_exportName {name : String} {start : Nat} {arguments : List Expr} {worker : Bool}
    {actor : ExtractedActor} (h : readActor name start arguments worker = .ok actor) :
    actor.exportName = name := by
  unfold readActor at h
  dsimp only at h
  split at h
  · rename_i properties hfirst
    split at h
    · cases h
    split at h
    · cases hstreams : readStreams name ((optionsOf properties).get "streams") with
      | error met => rw [hstreams] at h; cases h
      | ok streams =>
        cases hreads : readReads name ((optionsOf properties).get "reads") with
        | error met => rw [hstreams, hreads] at h; cases h
        | ok reads => rw [hstreams, hreads] at h; cases h; rfl
    · cases h
  · cases h

/-- What the loop does with a declarator. -/
theorem readDeclarator_cases (names workers : List String) (d : Declarator) :
    (d.id.readName = none ∧ readDeclarator names workers d = none) ∨
    ∃ name, d.id.readName = some name ∧
      ((d.init.bind (defineCall names) = none ∧
          readDeclarator names workers d = some (.other name)) ∨
        ∃ call, d.init.bind (defineCall names) = some call ∧
          ((∃ actor, readDeclarator names workers d = some (.actor actor) ∧
              actor.exportName = name) ∨
            ∃ met, readDeclarator names workers d = some (.error met))) := by
  unfold readDeclarator
  cases hid : d.id with
  | identifier name =>
    refine .inr ⟨name, rfl, ?_⟩
    dsimp only
    split
    · rename_i callee start arguments hcall
      refine .inr ⟨_, hcall, ?_⟩
      split
      · rename_i actor hread
        exact .inl ⟨actor, rfl, readActor_exportName hread⟩
      · rename_i met hread
        exact .inr ⟨met, rfl⟩
    · rename_i hcall
      exact .inl ⟨hcall, rfl⟩
  | object | array | rest | assignment => exact .inl ⟨rfl, rfl⟩

namespace Reading

/-- The name that is pushed. -/
def name? : Reading → Option String
  | .actor read => some read.exportName
  | .other name => some name
  | .error _ => none

/-- The name of the actor that is. -/
def actorName? (r : Reading) : Option String := r.actor?.map (·.exportName)

end Reading

variable {names workers : List String}

theorem readDeclarator_name {d : Declarator}
    (h : (readDeclarator names workers d).bind Reading.error? = none) :
    (readDeclarator names workers d).bind Reading.name? = d.id.readName := by
  rcases readDeclarator_cases names workers d with ⟨hname, hread⟩ | ⟨name, hname, hread⟩
  · rw [hname, hread]; rfl
  · rcases hread with ⟨-, hread⟩ | ⟨call, -, ⟨actor, hread, rfl⟩ | ⟨met, hread⟩⟩
    · rw [hname, hread]; rfl
    · rw [hname, hread]; rfl
    · rw [hread] at h; cases h

theorem readDeclarator_actorName {d : Declarator}
    (h : (readDeclarator names workers d).bind Reading.error? = none) :
    (readDeclarator names workers d).bind Reading.actorName? =
      d.id.readName.bind fun name => (d.init.bind (defineCall names)).map fun _ => name := by
  rcases readDeclarator_cases names workers d with ⟨hname, hread⟩ | ⟨name, hname, hread⟩
  · rw [hname, hread]; rfl
  · rcases hread with ⟨hcall, hread⟩ | ⟨call, hcall, ⟨actor, hread, rfl⟩ | ⟨met, hread⟩⟩
    · rw [hname, hread, hcall]; rfl
    · rw [hname, hread, hcall]; rfl
    · rw [hread] at h; cases h

theorem names_specifiers (specifiers : List ExportSpecifier) : (specifiers.filterMap fun spec =>
      if spec.isType then none else some (Reading.other spec.exported.text)) =
      ((readSpecifiers specifiers).map (·.exported.text)).map .other := by
  induction specifiers with
  | nil => rfl
  | cons spec rest ih =>
    rw [List.filterMap_cons]
    unfold readSpecifiers at ih ⊢
    cases htype : spec.isType with
    | true =>
      rw [List.filter_cons_of_neg (by rw [htype]; exact Bool.false_ne_true)]
      exact ih
    | false =>
      rw [List.filter_cons_of_pos (by rw [htype]; rfl)]
      exact congrArg _ ih

/-- What else is pushed has its name, and is no actor. -/
theorem names_others (names : List String) :
    (names.map Reading.other).filterMap Reading.name? = names ∧
      (names.map Reading.other).filterMap Reading.actorName? = [] := by
  rw [List.filterMap_map, List.filterMap_map]
  exact ⟨List.filterMap_some, List.filterMap_eq_nil_iff.2 fun _ _ => rfl⟩

variable {item : ModuleItem}

/-- An item that meets no error: its names are pushed, and as actors those of its calls. -/
theorem readItem_names
    (h : (readItem names workers item).filterMap Reading.error? = []) :
    (readItem names workers item).filterMap Reading.name? = item.readNames ∧
      (readItem names workers item).filterMap Reading.actorName? =
        (item.calls names).map (·.1) := by
  cases item with
  | exportNamed isType d specifiers source =>
    cases isType with
    | true => exact ⟨rfl, rfl⟩
    | false =>
      cases d with
      | none =>
        have hread : readItem names workers (.exportNamed false none specifiers source) =
            ((readSpecifiers specifiers).map (·.exported.text)).map .other :=
          names_specifiers specifiers
        rw [hread]
        exact names_others _
      | some d =>
        cases d with
        | «variable» declared declarators =>
          have hnone : ∀ d ∈ declarators,
              (readDeclarator names workers d).bind Reading.error? = none := by
            refine List.filterMap_eq_nil_iff.1 ?_
            rw [← List.filterMap_filterMap]
            exact h
          refine ⟨?_, ?_⟩
          · refine (List.filterMap_filterMap).trans ?_
            exact List.filterMap_congr fun d hd => readDeclarator_name (hnone d hd)
          · refine (List.filterMap_filterMap).trans ?_
            refine Eq.trans ?_ (List.map_filterMap).symm
            refine List.filterMap_congr fun d hd => ?_
            rw [readDeclarator_actorName (hnone d hd)]
            cases d.id.readName with
            | none => rfl
            | some name => cases d.init.bind (defineCall names) <;> rfl
        | function id | «class» _ id => exact names_others id.toList
        | «enum» | «namespace» | importEquals | types => exact ⟨rfl, rfl⟩
  | exportDefault start => cases h
  | imports | exportAll | declares | other => exact ⟨rfl, rfl⟩

/-- What the walk pushes. -/
def readings (options : ExtractOptions) (body : List ModuleItem) : List Reading :=
  body.flatMap (readItem (defineNames options body) (workerNames options body))

section

variable {options : ExtractOptions} {body : List ModuleItem}

section

variable (h : (readings options body).filterMap Reading.error? = [])
include h

theorem readings_item (hitem : item ∈ body) :
    (readItem (defineNames options body) (workerNames options body) item).filterMap
      Reading.error? = [] := by
  unfold readings at h
  rw [List.filterMap_flatMap] at h
  exact List.flatMap_eq_nil_iff.1 h item hitem

theorem readings_names : (readings options body).filterMap Reading.name? = readNames body := by
  unfold readings readNames
  rw [List.filterMap_flatMap]
  exact List.flatMap_congr fun item hitem => (readItem_names (readings_item h hitem)).1

theorem readings_actorNames :
    (readings options body).filterMap Reading.actorName? = (actorCalls options body).map (·.1) := by
  unfold readings actorCalls
  rw [List.filterMap_flatMap, List.map_flatMap]
  exact List.flatMap_congr fun item hitem => (readItem_names (readings_item h hitem)).2

/-- No default is exported. -/
theorem no_default
    (hitem : item ∈ body) (start : Nat) : item ≠ .exportDefault start := by
  rintro rfl
  cases readings_item h hitem

theorem extract_overlap
    (exportsOf : String → List String) : Overlap (valueExports exportsOf body) (readNames body)
      (hiddenExports exportsOf body) (ambientNames body) :=
  .flatMap fun _ hitem => ModuleItem.overlap exportsOf _ (no_default h hitem)

end

end

/-- The actors and the others are what has a name. -/
theorem split_perm {l : List Reading} (h : l.filterMap Reading.error? = []) :
    ((l.filterMap Reading.actor?).map (·.exportName) ++ l.filterMap Reading.other?).Perm
      (l.filterMap Reading.name?) := by
  induction l with
  | nil => exact .nil
  | cons r rest ih =>
    cases r with
    | actor read => exact (ih h).cons read.exportName
    | other name => exact List.perm_middle.trans ((ih h).cons name)
    | error met => cases h

/-! ## Covering -/

/-- The name that a line exports. -/
def ClientLine.exportName? : ClientLine → Option String
  | .actorRef exportName .. => some exportName
  | .serverOnly exportName _ => some exportName
  | .header | .importServerOnly => none

/-- The client module covers the module: it is one, it exports the values that the module does, the
exports that are initialised as actors are read as actors and meet the gate, the other values are
stand-ins, and an option that is read was written. -/
structure Covers (bindable : String → Bool) (exportsOf : String → List String) (file : String)
    (options : ExtractOptions) (body : List ModuleItem) : Prop where
  exports : ∃ lines, (extractActors file options body).clientModule = some lines ∧
    (∀ name ∈ lines.filterMap ClientLine.exportName?, bindable name = true) ∧
    (lines.filterMap ClientLine.exportName?).Nodup ∧
    ∀ name, name ∈ lines.filterMap ClientLine.exportName? ↔ name ∈ valueExports exportsOf body
  actors : ∀ named ∈ initialisers body, definesActor options body named.2 = true →
    ∃ actor ∈ (extractActors file options body).actors, actor.exportName = named.1
  gated : options.requireAuthorization ≠ .off → options.hasServerApp = false →
    ∀ actor ∈ (extractActors file options body).actors,
      actor.authorized = true ∨ actor.anonymous = true ∨
        options.requireAuthorization = .warn ∧
          gateMessage actor ∈ (extractActors file options body).warnings
  others : ∀ lines, (extractActors file options body).clientModule = some lines →
    ∀ name ∈ valueExports exportsOf body,
      (∀ named ∈ initialisers body, definesActor options body named.2 = true → named.1 ≠ name) →
      ClientLine.serverOnly name file ∈ lines
  declared : ∀ call ∈ actorCalls options body, ∀ properties,
    call.2.2.2.head? = some (.object properties) → ∀ name ∈ optionNames,
      ((optionsOf properties).get name).isSome = true → Plain properties name

/-- What the walk can read: no value is exported by a form that it skips, what it reads are values,
every name of them is one that `const` binds, once, the calls are exported where they are declared
and stand bare, and no key that is computed looks like an option. -/
structure Readable (bindable : String → Bool) (exportsOf : String → List String)
    (options : ExtractOptions) (body : List ModuleItem) : Prop where
  shown : ∀ name ∈ hiddenExports exportsOf body, name ∈ readNames body
  valued : ∀ name ∈ ambientNames body, name ∈ valueExports exportsOf body
  bound : ∀ name ∈ readNames body, bindable name = true
  once : (readNames body).Nodup
  bare : ∀ named ∈ initialisers body, definesActor options body named.2 = true →
    ∃ call ∈ actorCalls options body, call.1 = named.1
  plain : ∀ call ∈ actorCalls options body, ∀ properties,
    call.2.2.2.head? = some (.object properties) → ∀ name ∈ optionNames,
      LooksComputed properties name → Plain properties name

theorem clientLines_names (file : String) (options : ExtractOptions)
    (actors : List ExtractedActor) (others : List String) :
    (clientLines file options actors others).filterMap ClientLine.exportName? =
      actors.map (·.exportName) ++ others := by
  have hactors : (actors.map (actorLine file options)).filterMap ClientLine.exportName? =
      actors.map (·.exportName) := by
    rw [List.filterMap_map, ← List.filterMap_eq_map]
    refine List.filterMap_congr fun actor _ => ?_
    show (actorLine file options actor).exportName? = some actor.exportName
    unfold actorLine
    cases actor.internal <;> rfl
  have hothers : (others.map fun name => ClientLine.serverOnly name file).filterMap
      ClientLine.exportName? = others := by
    rw [List.filterMap_map]
    exact List.filterMap_some
  unfold clientLines
  rw [List.filterMap_cons_none rfl, List.filterMap_append, List.filterMap_append, hactors, hothers]
  split <;> rfl

/-- A call that is read initialises an export. -/
theorem call_initialises {options : ExtractOptions} {body : List ModuleItem}
    {call : String × String × Nat × List Expr} (hcall : call ∈ actorCalls options body) :
    ∃ named ∈ initialisers body, definesActor options body named.2 = true ∧ named.1 = call.1 := by
  obtain ⟨item, hitem, hcall⟩ := List.mem_flatMap.1 hcall
  unfold ModuleItem.calls at hcall
  split at hcall
  · obtain ⟨d, hd, hcall⟩ := List.mem_filterMap.1 hcall
    obtain ⟨name, hname, hcall⟩ := Option.bind_eq_some_iff.1 hcall
    obtain ⟨read, hread, rfl⟩ := Option.map_eq_some_iff.1 hcall
    obtain ⟨init, hinit, hread⟩ := Option.bind_eq_some_iff.1 hread
    refine ⟨(name, init), List.mem_flatMap.2 ⟨_, hitem, ?_⟩, ?_, rfl⟩
    · refine List.mem_filterMap.2 ⟨d, hd, ?_⟩
      rw [hname, hinit]
      rfl
    · unfold defineCall at hread
      split at hread
      · split at hread
        · rename_i hin
          exact decide_eq_true hin
        · cases hread
      · cases hread
  · cases hcall

section

variable {file : String} {options : ExtractOptions} {body : List ModuleItem}

section

variable (h : (extractActors file options body).errors = [])
include h

theorem no_read_error :
    (readings options body).filterMap Reading.error? = [] := (List.append_eq_nil_iff.1 h).1

/-- With no error there is a client module, whose names are those that are read. -/
theorem client_names :
    (extractActors file options body).clientModule = some (clientLines file options
        (extractActors file options body).actors (extractActors file options body).otherExports) ∧
      ((clientLines file options (extractActors file options body).actors
          (extractActors file options body).otherExports).filterMap
        ClientLine.exportName?).Perm (readNames body) := by
  refine ⟨if_pos h, ?_⟩
  rw [clientLines_names, ← readings_names (no_read_error h)]
  exact split_perm (no_read_error h)

/-- An actor is there where a call is. -/
theorem actor_iff_call (name : String) :
    (∃ actor ∈ (extractActors file options body).actors, actor.exportName = name) ↔
      ∃ call ∈ actorCalls options body, call.1 = name := by
  have hnames : (extractActors file options body).actors.map (·.exportName) =
      (actorCalls options body).map (·.1) := by
    rw [← readings_actorNames (no_read_error h)]
    exact List.map_filterMap
  rw [← List.mem_map, hnames, List.mem_map]

/-- The gate has decided on every actor. -/
theorem gate_decides
    (hrequire : options.requireAuthorization ≠ .off) (happ : options.hasServerApp = false)
    {actor : ExtractedActor} (hactor : actor ∈ (extractActors file options body).actors) :
    actor.authorized = true ∨ actor.anonymous = true ∨ options.requireAuthorization = .warn ∧
      gateMessage actor ∈ (extractActors file options body).warnings := by
  by_cases hdecided : actor.authorized = true ∨ actor.anonymous = true
  · exact hdecided.imp_right .inl
  refine .inr (.inr ?_)
  have hin : actor ∈ undecided options (extractActors file options body).actors := by
    unfold undecided
    rw [if_pos ⟨hrequire, happ⟩]
    refine List.mem_filter.2 ⟨hactor, ?_⟩
    rw [Bool.eq_false_iff.2 fun h => hdecided (.inl h),
      Bool.eq_false_iff.2 fun h => hdecided (.inr h)]
    rfl
  have hgate := (List.append_eq_nil_iff.1 h).2
  by_cases hwarn : options.requireAuthorization = .warn
  · refine ⟨hwarn, ?_⟩
    show gateMessage actor ∈ if _ then _ else _
    rw [if_pos hwarn]
    exact List.mem_map_of_mem hin
  · rw [if_neg hwarn] at hgate
    have hnil : undecided options (extractActors file options body).actors = [] :=
      List.map_eq_nil_iff.1 hgate
    rw [hnil] at hin
    cases hin

end

/-- Where no error is reported, the client module covers the module exactly where the walk can read
it. -/
theorem extract_covers_iff (bindable : String → Bool) (exportsOf : String → List String)
    (h : (extractActors file options body).errors = []) :
    Covers bindable exportsOf file options body ↔ Readable bindable exportsOf options body := by
  obtain ⟨hlines, hperm⟩ := client_names h
  have hover := extract_overlap (no_read_error h) exportsOf
  constructor
  · intro hcovers
    obtain ⟨lines, hmodule, hbindable, honce, hsame⟩ := hcovers.exports
    cases hlines.symm.trans hmodule
    have hread := hover.same_iff.1 fun name => hperm.mem_iff.symm.trans (hsame name)
    exact {
      shown := hread.1
      valued := hread.2
      bound := fun name hname => hbindable name (hperm.mem_iff.2 hname)
      once := hperm.nodup_iff.1 honce
      bare := fun named hnamed hdefines =>
        (actor_iff_call h named.1).1 (hcovers.actors named hnamed hdefines)
      plain := fun call hcall properties hfirst name hname hlooks =>
        hcovers.declared call hcall properties hfirst name hname
          ((get_optionsOf name properties).2 (.inr hlooks)) }
  · intro hreadable
    have hsame := hover.same_iff.2 ⟨hreadable.shown, hreadable.valued⟩
    refine {
      exports := ⟨_, hlines, fun name hname => hreadable.bound name (hperm.mem_iff.1 hname),
        hperm.nodup_iff.2 hreadable.once, fun name => hperm.mem_iff.trans (hsame name)⟩
      actors := fun named hnamed hdefines =>
        (actor_iff_call h named.1).2 (hreadable.bare named hnamed hdefines)
      gated := fun hrequire happ actor hactor => gate_decides h hrequire happ hactor
      others := ?_
      declared := fun call hcall properties hfirst name hname hset =>
        ((get_optionsOf name properties).1 hset).elim id
          (hreadable.plain call hcall properties hfirst name hname) }
    -- a value that is no actor is among the names that are read, and no call has its name
    intro lines hmodule name hname hother
    cases hlines.symm.trans hmodule
    have hin := hperm.mem_iff.2 ((hsame name).2 hname)
    rw [clientLines_names] at hin
    rcases List.mem_append.1 hin with hactor | hin
    · obtain ⟨call, hcall, hcalled⟩ := (actor_iff_call h name).1 (List.mem_map.1 hactor)
      obtain ⟨named, hnamed, hdefines, heq⟩ := call_initialises hcall
      exact absurd (heq.trans hcalled) (hother named hnamed hdefines)
    · exact List.mem_cons_of_mem _ (List.mem_append_right _ (List.mem_map_of_mem hin))

end

/-! ### Modules -/

/-- `import { defineActor } from '@sigx/actors'`. -/
def importsDefineActor : ModuleItem :=
  .imports false "@sigx/actors" [.named false "defineActor" "defineActor"]

/-- `export const name = init`. -/
def exportsConst (name : String) (init : Expr) : ModuleItem :=
  .exportNamed false (some (.variable false [⟨.identifier name, some init⟩])) [] none

/-- `defineActor({ type: 'cart', … })`. -/
def definesCart (rest : List Property) : Expr :=
  .call 0 (.identifier "defineActor")
    [.object (.property 1 (.identifier "type") false (.string "cart") :: rest)]

/-- An actor and a function. -/
def plainModule : List ModuleItem :=
  [importsDefineActor,
    exportsConst "Cart"
      (definesCart [.property 2 (.identifier "allowAnonymous") false (.boolean true)]),
    .exportNamed false (some (.function (some "total"))) [] none]

theorem extract_covers_plain : Covers (fun _ => true) (fun _ => []) "cart.actor.ts"
    { endpoint := "/_actors" } plainModule := by
  refine (extract_covers_iff (fun _ => true) (fun _ => []) (by decide)).2 ?_
  exact {
    shown := nofun
    valued := nofun
    bound := fun _ _ => rfl
    once := by decide
    bare := by
      intro named hnamed _
      rcases List.mem_singleton.1 hnamed with rfl
      exact ⟨_, List.mem_singleton.2 rfl, rfl⟩
    plain := by
      intro call hcall properties hfirst name _ hlooks
      rcases List.mem_singleton.1 hcall with rfl
      cases hfirst
      obtain ⟨start, key, value, hin, -⟩ := hlooks
      rcases List.mem_cons.1 hin with h | h
      · cases h
      · cases List.mem_singleton.1 h }

/-- `export const Cart = defineActor({ type: 'cart' }) as …`. -/
def wrappedModule : List ModuleItem :=
  [importsDefineActor, exportsConst "Cart" (.wrapped .asExpression (definesCart []))]

/-- `export const { total } = …`. -/
def patternModule : List ModuleItem :=
  [.exportNamed false (some (.variable false [⟨.object [.identifier "total"], some .other⟩])) [] none]

/-- `export const Cart = defineActor({ type: 'cart', [authorize]: … })`. -/
def computedModule : List ModuleItem :=
  [importsDefineActor,
    exportsConst "Cart" (definesCart [.property 2 (.identifier "authorize") true .other])]

/-- A call that is wrapped is no actor, and the gate does not see it; a name in a pattern is not in
the client module; a computed key counts as the option that it looks like. -/
theorem not_extract_covers :
    ((extractActors "cart.actor.ts" { endpoint := "/_actors" } wrappedModule).errors = [] ∧
      ¬ ∃ actor ∈ (extractActors "cart.actor.ts" { endpoint := "/_actors" } wrappedModule).actors,
        actor.exportName = "Cart") ∧
    ((extractActors "cart.actor.ts" { endpoint := "/_actors" } patternModule).errors = [] ∧
      "total" ∈ valueExports (fun _ => []) patternModule ∧
      (extractActors "cart.actor.ts" { endpoint := "/_actors" } patternModule).clientModule =
        some [.header]) ∧
    ((extractActors "cart.actor.ts" { endpoint := "/_actors" } computedModule).errors = [] ∧
      (extractActors "cart.actor.ts" { endpoint := "/_actors" } computedModule).actors.map
        (·.authorized) = [true]) ∧
    ¬ ∀ (file : String) (options : ExtractOptions) (body : List ModuleItem),
      (extractActors file options body).errors = [] →
        Covers (fun _ => true) (fun _ => []) file options body := by
  have hnone : ¬ ∃ actor ∈ (extractActors "cart.actor.ts" { endpoint := "/_actors" }
      wrappedModule).actors, actor.exportName = "Cart" := by
    rintro ⟨actor, hactor, -⟩
    cases hactor
  refine ⟨⟨by decide, hnone⟩, ⟨by decide, by decide, by decide⟩, ⟨by decide, by decide⟩,
    fun hall => ?_⟩
  exact hnone ((hall "cart.actor.ts" { endpoint := "/_actors" } wrappedModule (by decide)).actors
    ("Cart", .wrapped .asExpression (definesCart [])) (List.mem_singleton.2 rfl) (by decide))

end SigxActors.Vite
