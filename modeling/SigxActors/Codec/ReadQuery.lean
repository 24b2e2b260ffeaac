/-
  Codec/ReadQuery.lean --- the arguments of a declared read in the query of its URL.

  Scalars ride as named parameters, a string that would be read as something else in quotes, and
  anything richer as one blob.  What is read of a query is said here by the grammar alone: the
  server's decoder is not the runtime's.

  Source: `packages/actors/src/wire-url.ts`.
-/
import SigxActors.Js.FormEncoding
import SigxActors.Js.Stringify

set_option autoImplicit false

namespace SigxActors.Codec

open SigxActors.Js

variable {N : Type} [JsNumber N]

/-! ## Writing -/

/-- `LITERALS`. -/
def literals : List Text := [trueText, falseText, nullText]

def isSimpleScalar : Value N → Bool
  | .null | .str _ | .bool _ => true
  | .num n => isFinite n
  | _ => false

/-- The bare text is not read as itself; `NUMERIC` is the grammar of the numbers of JSON. -/
def readsOtherwise (text : Text) : Bool :=
  isNumberToken text || decide (text ∈ literals) || text.head? == some 0x22

def encodeScalar : Value N → Text
  | .str s => if readsOtherwise s then quote s else s
  | .null => nullText
  | .bool b => if b then trueText else falseText
  | .num n => (JsNumber.toText n).getD []
  -- no simple scalar
  | _ => []

/-- `a0`, `a1` and so on. -/
def paramName (index : Nat) : Text := 0x61 :: decimalText index

/-- `args`. -/
def argsName : Text := [0x61, 0x72, 0x67, 0x73]

def encodeReadQuery (args : List (Value N)) (encodeBlob : List (Value N) → Text) : Text :=
  formSerialize
    (if args.all isSimpleScalar then
      args.zipIdx.foldl (fun params arg => setParam params (paramName arg.2) (encodeScalar arg.1)) []
    else setParam [] argsName (encodeBlob args))

/-! ## The reading grammar -/

/-- The raw text of a parameter. -/
def readScalar (text : Text) : Option (Value N) :=
  if isNumberToken text then some (.num (JsNumber.ofText text))
  else if text = trueText then some (.bool true)
  else if text = falseText then some (.bool false)
  else if text = nullText then some .null
  else if text.head? = some 0x22 then
    match (parseJson text : Option (Json N)) with
    | some (.str s) => some (.str s)
    | _ => none
  else some (.str text)

/-- So many named parameters from an index on. -/
def readNamed (params : List (Text × Text)) : Nat → Nat → Option (List (Value N))
  | _, 0 => some []
  | index, count + 1 =>
      ((params.lookup (paramName index)).bind readScalar).bind fun v =>
        (readNamed params (index + 1) count).map (v :: ·)

inductive ReadArgs (N : Type) where
  | args (values : List (Value N))
  | blob (text : Text)

def readQuery (query : Text) : Option (ReadArgs N) :=
  match formParse query with
  | [(name, text)] =>
      if name = argsName then some (.blob text) else (readNamed [(name, text)] 0 1).map .args
  | params => (readNamed params 0 params.length).map .args

/-! ## Scalars -/

/-- A scalar that rides by its name and is the same when it is read: no number that is not finite
or is `-0`, and no surrogate without its partner. -/
def Rides : Value N → Prop
  | .null | .bool _ => True
  | .num n => ∃ text, JsNumber.toText n = some text ∧ JsNumber.ofText text = n
  | .str s => WellFormed s
  | _ => False

variable {v : Value N} {args : List (Value N)}

theorem simple_of_rides (h : Rides v) : isSimpleScalar v = true := by
  cases v with
  | null | bool | str => rfl
  | num n =>
    obtain ⟨text, htext, -⟩ := h
    exact Option.isSome_iff_exists.2 ⟨text, htext⟩
  | _ => exact h.elim

theorem not_token_quote (s : Text) : isNumberToken (quote s) = false := by
  refine Bool.eq_false_iff.2 fun htoken => ?_
  obtain ⟨u, rest, hcons, hu⟩ := head_of_token htoken
  obtain ⟨rfl, -⟩ := List.cons.inj hcons
  exact absurd hu (by decide)

theorem read_quote (s : Text) : readScalar (quote s) = some (.str s : Value N) := by
  have hhead : (quote s).head? = some 0x22 := rfl
  have hunquoted : ∀ text ∈ literals, text.head? ≠ some 0x22 := by decide
  have hne : ∀ text ∈ literals, quote s ≠ text :=
    fun text htext heq => hunquoted text htext (heq ▸ hhead)
  have hparse : parseJson (quote s) = some (.str s : Json N) :=
    parseJson_stringify (v := .str s) trivial
  unfold readScalar
  rw [not_token_quote, if_neg nofun, if_neg (hne _ (.head _)), if_neg (hne _ (.tail _ (.head _))),
    if_neg (hne _ (.tail _ (.tail _ (.head _)))), if_pos hhead, hparse]

/-- A bare text that is read as itself. -/
theorem read_bare {s : Text} (h : readsOtherwise s = false) :
    readScalar s = some (.str s : Value N) := by
  rw [readsOtherwise, Bool.or_eq_false_iff, Bool.or_eq_false_iff, decide_eq_false_iff_not,
    beq_eq_false_iff_ne] at h
  obtain ⟨⟨htoken, hliteral⟩, hquote⟩ := h
  have hne : ∀ text ∈ literals, s ≠ text := fun text htext heq => hliteral (heq ▸ htext)
  unfold readScalar
  rw [htoken, if_neg nofun, if_neg (hne _ (.head _)), if_neg (hne _ (.tail _ (.head _))),
    if_neg (hne _ (.tail _ (.tail _ (.head _)))), if_neg hquote]

/-- A scalar is read as it was. -/
theorem read_encodeScalar (h : Rides v) : readScalar (encodeScalar v) = some v := by
  cases v with
  | null => rfl
  | bool b => cases b <;> rfl
  | num n =>
    obtain ⟨text, htext, hback⟩ := h
    rw [encodeScalar, htext, Option.getD_some, readScalar, if_pos (JsNumber.token htext), hback]
  | str s =>
    rw [encodeScalar]
    split
    · exact read_quote s
    · rename_i hbare
      exact read_bare (Bool.eq_false_iff.2 hbare)
  | _ => exact h.elim

theorem wellFormed_encodeScalar (h : Rides v) : WellFormed (encodeScalar v) := by
  have hplain : ∀ text ∈ literals, (text.all fun u => u.toNat < 0xD800) = true := by decide
  have hliteral : ∀ text ∈ literals, WellFormed text := fun text htext => .of_all (hplain text htext)
  cases v with
  | null => exact hliteral nullText (by decide)
  | bool b =>
    cases b with
    | false => exact hliteral falseText (by decide)
    | true => exact hliteral trueText (by decide)
  | num n =>
    obtain ⟨text, htext, -⟩ := h
    rw [encodeScalar, htext]
    exact (printed_token (JsNumber.token htext)).1
  | str s =>
    rw [encodeScalar]
    split
    · exact (printed_quote s).1
    · exact h
  | _ => exact h.elim

/-! ## Named parameters -/

theorem paramName_inj {i j : Nat} (h : paramName i = paramName j) : i = j := by
  have hdigits := congrArg ofDecimal (List.cons.inj h).2
  rw [ofDecimal_decimalText, ofDecimal_decimalText] at hdigits
  exact hdigits

theorem printed_paramName (index : Nat) : Printed (paramName index) :=
  .cons (by decide) (.of_plain fun u hu =>
    isNumberUnit_plain (isNumberUnit_of_isDigit (isDigit_decimalText index u hu)))

/-- The parameters of arguments that are counted from an index on. -/
def named (index : Nat) (args : List (Value N)) : List (Text × Text) :=
  (args.zipIdx index).map fun arg => (paramName arg.2, encodeScalar arg.1)

variable {params : List (Text × Text)}

theorem setParam_new {name : Text} (h : ∀ p ∈ params, p.1 ≠ name)
    (value : Text) : setParam params name value = params ++ [(name, value)] := by
  have hnone : ((params ++ []).dropWhile fun p : Text × Text => decide (p.1 ≠ name)) = [] :=
    List.dropWhile_append_of_pos fun p hp => decide_eq_true (h p hp)
  rw [List.append_nil] at hnone
  unfold setParam
  dsimp only
  rw [hnone]

/-- Each argument is put behind those that are before it. -/
theorem foldl_setParam (args : List (Value N)) {index : Nat}
    (h : ∀ p ∈ params, ∃ j < index, p.1 = paramName j) :
    (args.zipIdx index).foldl (fun params arg =>
      setParam params (paramName arg.2) (encodeScalar arg.1)) params = params ++ named index args := by
  induction args generalizing index params with
  | nil => exact (List.append_nil params).symm
  | cons v args ih =>
    have hnew : ∀ p ∈ params, p.1 ≠ paramName index := by
      intro p hp heq
      obtain ⟨j, hlt, hname⟩ := h p hp
      exact Nat.ne_of_lt hlt (paramName_inj (hname.symm.trans heq))
    rw [List.zipIdx_cons, List.foldl_cons, setParam_new hnew, ih, List.append_assoc]
    · rfl
    · intro p hp
      rcases List.mem_append.1 hp with hp | hp
      · obtain ⟨j, hlt, hname⟩ := h p hp
        exact ⟨j, Nat.lt_succ_of_lt hlt, hname⟩
      · obtain rfl := List.mem_singleton.1 hp
        exact ⟨index, Nat.lt_succ_self index, rfl⟩

theorem lookup_named (args : List (Value N)) (index i : Nat) :
    (named index args).lookup (paramName (index + i)) = (args[i]?).map encodeScalar := by
  induction args generalizing index i with
  | nil => rfl
  | cons v args ih =>
    have hcons : named index (v :: args) = (paramName index, encodeScalar v) :: named (index + 1) args :=
      rfl
    rw [hcons]
    cases i with
    | zero => exact List.lookup_cons_self
    | succ i =>
      have hne : (paramName (index + (i + 1)) == paramName index) = false :=
        beq_eq_false_iff_ne.2 fun heq => absurd (paramName_inj heq) (by omega)
      have hnext : index + (i + 1) = index + 1 + i := by omega
      rw [List.lookup_cons, hne, hnext]
      exact ih (index + 1) i

theorem readNamed_eq (h : ∀ v ∈ args, Rides v) (index : Nat)
    (hparams : ∀ i < args.length,
      params.lookup (paramName (index + i)) = (args[i]?).map encodeScalar) :
    readNamed params index args.length = some args := by
  induction args generalizing index with
  | nil => rfl
  | cons v args ih =>
    rw [List.forall_mem_cons] at h
    have hfirst : params.lookup (paramName index) = some (encodeScalar v) :=
      hparams 0 (Nat.succ_pos _)
    have hrest := ih h.2 (index + 1) fun i hi => by
      rw [Nat.add_assoc, Nat.add_comm 1]
      exact hparams (i + 1) (Nat.succ_lt_succ hi)
    rw [List.length_cons, readNamed, hfirst, Option.bind_some, read_encodeScalar h.1,
      Option.bind_some, hrest]
    rfl

/-! ## Queries -/

/-- The parameters of scalars are parsed to the same list. -/
theorem parse_named (h : ∀ v ∈ args, Rides v) (index : Nat) :
    formParse (formSerialize (named index args)) = named index args := by
  rw [formParse_formSerialize]
  refine (List.map_congr_left fun p hp => ?_).trans (List.map_id _)
  obtain ⟨⟨v, i⟩, hv, rfl⟩ := List.mem_map.1 hp
  have hrides := h v (List.fst_mem_of_mem_zipIdx hv)
  exact Prod.ext (printed_paramName i).1.units (wellFormed_encodeScalar hrides).units

variable (encodeBlob : List (Value N) → Text)

theorem encodeReadQuery_scalars (h : ∀ v ∈ args, Rides v) :
    encodeReadQuery args encodeBlob = formSerialize (named 0 args) := by
  have hall : args.all isSimpleScalar = true :=
    List.all_eq_true.2 fun v hv => simple_of_rides (h v hv)
  rw [encodeReadQuery, if_pos hall, foldl_setParam args (List.forall_mem_nil _),
    List.nil_append]

theorem readQuery_scalars (h : ∀ v ∈ args, Rides v) :
    readQuery (encodeReadQuery args encodeBlob) = some (.args args) := by
  have hread : readNamed (named 0 args) 0 args.length = some args :=
    readNamed_eq h 0 fun i _ => lookup_named args 0 i
  have hlength : (named 0 args).length = args.length := by
    rw [named, List.length_map, List.length_zipIdx]
  rw [encodeReadQuery_scalars encodeBlob h, readQuery, parse_named h]
  cases args with
  | nil => rfl
  | cons v rest =>
    cases rest with
    | nil =>
      have hname : paramName 0 ≠ argsName := by
        intro heq
        have hdigit := isDigit_decimalText 0 0x72
        rw [(List.cons.inj heq).2] at hdigit
        exact absurd (hdigit (.head _)) (by decide)
      exact (if_neg hname).trans (congrArg (Option.map ReadArgs.args) hread)
    | cons =>
      exact congrArg (Option.map ReadArgs.args) ((congrArg (readNamed _ 0) hlength).trans hread)

/-- A blob is read, with a replacement for each surrogate that has no partner. -/
theorem readQuery_blob (h : args.all isSimpleScalar = false) :
    readQuery (encodeReadQuery args encodeBlob) =
      some (.blob (N := N) ((scalars (encodeBlob args)).flatMap unitsOf)) := by
  rw [encodeReadQuery, h, if_neg nofun, readQuery, formParse_formSerialize]
  rfl

/-- **The read query.**  What is read of a query is the scalars that were written, or the blob, and
arguments that are not the same have other queries. -/
theorem read_query_round_trip :
    (∀ args : List (Value N), (∀ v ∈ args, Rides v) →
      readQuery (encodeReadQuery args encodeBlob) = some (.args args)) ∧
    (∀ args args' : List (Value N), (∀ v ∈ args, Rides v) →
      ((∀ v ∈ args', Rides v) ∨ args'.all isSimpleScalar = false) →
      encodeReadQuery args encodeBlob = encodeReadQuery args' encodeBlob → args = args') ∧
    ∀ args : List (Value N), args.all isSimpleScalar = false → WellFormed (encodeBlob args) →
      readQuery (encodeReadQuery args encodeBlob) = some (.blob (N := N) (encodeBlob args)) := by
  refine ⟨fun args => readQuery_scalars encodeBlob, fun args args' h h' heq => ?_,
    fun args hblob hformed => ?_⟩
  · have hread := readQuery_scalars encodeBlob h
    rw [heq] at hread
    rcases h' with h' | hblob
    · rw [readQuery_scalars encodeBlob h'] at hread
      cases hread
      rfl
    · rw [readQuery_blob encodeBlob hblob] at hread
      cases hread
  · rw [readQuery_blob encodeBlob hblob, hformed.units]

/-- `"42"`, `42` and `true`. -/
theorem read_query_round_trip_mixed :
    readQuery (encodeReadQuery [.str [0x34, 0x32], .num (42 : Int), .bool true] fun _ => []) =
      some (.args [.str [0x34, 0x32], .num (42 : Int), .bool true]) := by
  refine (read_query_round_trip _).1 _ ?_
  rw [List.forall_mem_cons, List.forall_mem_cons, List.forall_mem_singleton]
  exact ⟨.of_all (by decide), ⟨_, rfl, ofIntText_intText 42⟩, trivial⟩

end SigxActors.Codec
