/-
  Cluster/Envelope.lean --- the call envelope between hosts.

  Source: `packages/actors/src/cluster/envelope.ts`, `packages/actors/src/traceparent.ts`.

  An envelope is one header: JSON, whose units are all printable.  A field is written
  where it has something to say.  What a peer sends may be anything: the fields that
  time a call out or stop a loop fail loudly, the others are left out.
-/
import SigxActors.Codec.CallBag
import SigxActors.Js.JsonAscii
import SigxActors.Js.Number

set_option autoImplicit false

namespace SigxActors.Cluster

open SigxActors.Js
open SigxActors.Codec

/-! ## Trace contexts -/

/-- `[0-9a-f]`. -/
def isLowerHex (u : UInt16) : Bool := isDigit u || (0x61 ≤ u.toNat && u.toNat ≤ 0x66)

/-- `-`. -/
def dash : Text := spell ['-']

/-- `TRACEPARENT_RE.test(value)`. -/
def traceparentRe (value : Text) : Bool :=
  value.length == 55 && (value.take 2).all isLowerHex && (value.drop 2).take 1 == dash &&
    ((value.drop 3).take 32).all isLowerHex && (value.drop 35).take 1 == dash &&
    ((value.drop 36).take 16).all isLowerHex && (value.drop 52).take 1 == dash &&
    (value.drop 53).all isLowerHex

/-- `isTraceparent`, of a string. -/
def isTraceparent (value : Text) : Bool :=
  traceparentRe value && !(value.take 3 == spell ['f', 'f', '-']) &&
    !((value.drop 3).take 32 == List.replicate 32 0x30) &&
    !((value.drop 36).take 16 == List.replicate 16 0x30)

/-! ## Calls -/

/-- `ActorCallContext`, without what stays on its host. -/
structure ActorCallContext (N : Type) where
  callChain : List Text
  callId : Text
  /-- Epoch milliseconds. -/
  deadline : Option N := none
  traceparent : Option Text := none
  oneWay : Bool := false
  /-- Whatever a middleware put there. -/
  bag : Option (Json N) := none
  /-- Encoded. -/
  principal : Option Text := none

structure DecodedEnvelope (N : Type) where
  call : ActorCallContext N
  from_ : Text

/-- What `decodeEnvelope` throws. -/
inductive EnvelopeError (N : Type) where
  /-- `[sigx actors] malformed x-sigx-host-call header` -/
  | malformed
  /-- `[sigx actors] host protocol version skew: got v${got}, this host speaks v1 …` -/
  | versionSkew (got : Option (Json N))
  /-- `[sigx actors] host call exceeded 8 hops — forwarding loop?` -/
  | hopsExceeded
  /-- A property of `null` is read. -/
  | typeError

/-- `HOST_PROTO`. -/
def hostProto : Nat := 1

/-- `MAX_HOPS`. -/
def maxHops : Nat := 8

def vKey : Text := spell ['v']
def callIdKey : Text := spell ['c', 'a', 'l', 'l', 'I', 'd']
def chainKey : Text := spell ['c', 'h', 'a', 'i', 'n']
def remainingMsKey : Text := spell ['r', 'e', 'm', 'a', 'i', 'n', 'i', 'n', 'g', 'M', 's']
def fromKey : Text := spell ['f', 'r', 'o', 'm']
def hopsKey : Text := spell ['h', 'o', 'p', 's']
def tpKey : Text := spell ['t', 'p']
def owKey : Text := spell ['o', 'w']
def bagKey : Text := spell ['b', 'a', 'g']
def prKey : Text := spell ['p', 'r']

section

variable {N : Type} [JsArithmetic N]

/-! ## Encoding -/

/-- `asciiJson`. -/
def asciiJson (value : Json N) : Text := asciiText (stringify value)

/-- An object literal whose fields may each be left out. -/
def present (fields : List (Text × Option (Json N))) : List (Text × Json N) :=
  fields.filterMap fun field => field.2.map fun value => (field.1, value)

/-- What is left of a call's budget. -/
def remainingMs (now deadline : N) : N :=
  JsArithmetic.max (JsArithmetic.ofNat 0) (JsArithmetic.sub deadline now)

/-- The bag crosses where it is valid and not empty. -/
def bagCrosses (bag : Json N) : Bool := isValidCallBag bag && !(entriesOf bag).isEmpty

/-- The fields of a `WireEnvelope`. -/
def wireEnvelope (now : N) (call : ActorCallContext N) (from_ : Text) :
    List (Text × Option (Json N)) :=
  [(vKey, some (.num (JsArithmetic.ofNat hostProto))),
    (callIdKey, some (.str call.callId)),
    (chainKey, some (.arr (call.callChain.map .str))),
    (remainingMsKey, call.deadline.map fun deadline => .num (remainingMs now deadline)),
    (fromKey, some (.str from_)),
    (hopsKey, some (.num (JsArithmetic.ofNat 1))),
    (tpKey, (call.traceparent.filter isTraceparent).map .str),
    (owKey, if call.oneWay = true then some (.num (JsArithmetic.ofNat 1)) else none),
    (bagKey, call.bag.filter bagCrosses),
    (prKey, (call.principal.filter fun principal => !principal.isEmpty).map .str)]

/-- `encodeEnvelope`, at a time. -/
def encodeEnvelope (now : N) (call : ActorCallContext N) (from_ : Text) : Text :=
  asciiJson (.obj (present (wireEnvelope now call from_)))

/-! ## Decoding -/

/-- `parsed.key`; none where it is undefined. -/
def own (key : Text) : Json N → Option (Json N)
  | .obj members => members.lookup key
  | _ => none

/-- `value === n`. -/
def isLiteral (n : Nat) : Option (Json N) → Bool
  | some (.num m) => JsArithmetic.strictEq m (JsArithmetic.ofNat n)
  | _ => false

/-- The strings of an array that has nothing else. -/
def asStrings : Json N → Option (List Text)
  | .arr elements => elements.mapM asString
  | _ => none

/-- A safe integer. -/
def asSafeInteger : Json N → Option N
  | .num n => if JsArithmetic.isSafeInteger n = true then some n else none
  | _ => none

/-- A number of milliseconds that may be left out, and that is finite where it is not. -/
def asBudget : Option (Json N) → Option (Option N)
  | none => some none
  | some (.num n) => if isFinite n = true then some (some n) else none
  | some _ => none

/-- `decodeEnvelope`, at a time. -/
def decodeEnvelope (now : N) (header : Text) : Except (EnvelopeError N) (DecodedEnvelope N) :=
  match parseJson (N := N) header with
  | none => .error .malformed
  | some .null => .error .typeError
  | some parsed =>
      if isLiteral hostProto (own vKey parsed) = true then
        match (own callIdKey parsed).bind asString, (own chainKey parsed).bind asStrings,
          (own fromKey parsed).bind asString, (own hopsKey parsed).bind asSafeInteger,
          asBudget (own remainingMsKey parsed) with
        | some callId, some chain, some from_, some hops, some remaining =>
            if JsArithmetic.gt hops (JsArithmetic.ofNat maxHops) = true then .error .hopsExceeded
            else
              .ok
                { call :=
                    { callChain := chain
                      callId := callId
                      deadline := remaining.map fun remaining =>
                        JsArithmetic.add now (JsArithmetic.max (JsArithmetic.ofNat 0) remaining)
                      traceparent := ((own tpKey parsed).bind asString).filter isTraceparent
                      oneWay := isLiteral 1 (own owKey parsed)
                      bag := sanitizeWireBag (own bagKey parsed)
                      principal := ((own prKey parsed).bind asString).filter
                        fun principal => !principal.isEmpty }
                  from_ := from_ }
        | _, _, _, _, _ => .error .malformed
      else .error (.versionSkew (own vKey parsed))

/-! ## Object literals -/

omit [JsArithmetic N] in
theorem present_cons (field : Text × Option (Json N)) (fields : List (Text × Option (Json N))) :
    present (field :: fields) =
      (field.2.map fun value => (field.1, value)).toList ++ present fields := by
  obtain ⟨key, value⟩ := field
  cases value <;> rfl

variable {fields : List (Text × Option (Json N))} {now : N} {call : ActorCallContext N}

omit [JsArithmetic N] in
theorem lookup_present (h : (fields.map Prod.fst).Nodup) (key : Text) :
    (present fields).lookup key = (fields.lookup key).join := by
  induction fields with
  | nil => rfl
  | cons field fields ih =>
    obtain ⟨k, value⟩ := field
    rw [List.map_cons, List.nodup_cons] at h
    rw [present_cons, List.lookup_cons]
    by_cases hkey : key = k
    · subst hkey
      rw [beq_self_eq_true]
      cases value with
      | some value => simp
      | none =>
        have hnone : fields.lookup key = none :=
          List.lookup_eq_none_iff.2 fun field hfield => bne_iff_ne.2 fun heq =>
            h.1 (List.mem_map.2 ⟨field, hfield, heq.symm⟩)
        simpa [hnone] using ih h.2
    · rw [beq_eq_false_iff_ne.2 hkey]
      cases value with
      | some value =>
        simp only [Option.map_some, Option.toList_some, List.singleton_append]
        rw [List.lookup_cons, beq_eq_false_iff_ne.2 hkey]
        exact ih h.2
      | none => exact ih h.2

omit [JsArithmetic N] in
/-- Of fields whose keys differ, each is read back or is undefined. -/
theorem own_present (h : (fields.map Prod.fst).Nodup) (key : Text) :
    own key (.obj (present fields)) = (fields.lookup key).join :=
  lookup_present h key

omit [JsArithmetic N] in
/-- No key is an array index. -/
theorem enumerated_present (h : (fields.map Prod.fst).Nodup)
    (hindex : ∀ field ∈ fields, indexOf field.1 = none) : Enumerated (present fields) := by
  rw [Enumerated, present, List.pairwise_filterMap]
  have hpairs := List.pairwise_map.1 h
  refine List.Pairwise.imp_of_mem ?_ hpairs
  intro a b ha hb hne c hc d hd
  obtain ⟨v, -, rfl⟩ := Option.map_eq_some_iff.1 hc
  obtain ⟨w, -, rfl⟩ := Option.map_eq_some_iff.1 hd
  refine ⟨hne, ?_⟩
  rw [comesBefore, hindex b hb]

theorem carriedMembers_present (h : ∀ field ∈ fields, ∀ v ∈ field.2, Carried v) :
    CarriedMembers (present fields) := by
  induction fields with
  | nil => trivial
  | cons field fields ih =>
    obtain ⟨key, value⟩ := field
    rw [List.forall_mem_cons] at h
    cases value with
    | some value => exact ⟨h.1 value rfl, ih h.2⟩
    | none => exact ih h.2

/-! ## The round trip -/

/-- The keys of an envelope. -/
def envelopeKeys : List Text :=
  [vKey, callIdKey, chainKey, remainingMsKey, fromKey, hopsKey, tpKey, owKey, bagKey, prKey]

theorem nodup_envelopeKeys : envelopeKeys.Nodup := by decide

theorem indexOf_envelopeKeys : ∀ key ∈ envelopeKeys, indexOf key = none := by
  have hall : (envelopeKeys.all fun key => indexOf key == none) = true := by decide
  exact fun key hkey => beq_iff_eq.1 (List.all_eq_true.1 hall key hkey)

theorem map_fst_wireEnvelope (now : N) (call : ActorCallContext N) (from_ : Text) :
    (wireEnvelope now call from_).map Prod.fst = envelopeKeys := rfl

/-- The time is one that a clock shows, the deadline is finite, and a bag that is an object
lists its properties as the language does. -/
structure ActorCallContext.Timed (now : N) (call : ActorCallContext N) : Prop where
  now : JsArithmetic.isSafeInteger now = true
  deadline : ∀ deadline ∈ call.deadline, isFinite deadline = true
  listed : ∀ entries, call.bag = some (.obj entries) → Enumerated entries

theorem ActorCallContext.Timed.remaining (h : call.Timed now) {deadline : N}
    (hdeadline : call.deadline = some deadline) : isFinite (remainingMs now deadline) = true :=
  JsArithmetic.finite_sub (h.deadline deadline hdeadline) h.now

theorem carried_literal {n : Nat} (h : n < 2 ^ 53) :
    Carried (.num (JsArithmetic.ofNat n) : Json N) := JsArithmetic.carried_ofNat n h

theorem carried_remainingMs {deadline : N} (h : isFinite (remainingMs now deadline) = true) :
    Carried (.num (remainingMs now deadline) : Json N) := by
  obtain ⟨text, htext⟩ := Option.isSome_iff_exists.1 h
  exact ⟨text, htext, JsArithmetic.carried_max htext⟩

theorem carriedElements_strings (strings : List Text) :
    CarriedElements (strings.map .str : List (Json N)) := by
  induction strings with
  | nil => trivial
  | cons s strings ih => exact ⟨trivial, ih⟩

omit [JsArithmetic N] in
theorem bagCrosses_obj {bag : Json N} (h : bagCrosses bag = true) :
    ∃ entries, bag = .obj entries ∧ isValidCallBag (.obj entries) = true ∧ entries ≠ [] := by
  rw [bagCrosses, Bool.and_eq_true, Bool.not_eq_true', List.isEmpty_eq_false_iff] at h
  obtain ⟨entries, rfl, -, -⟩ := obj_of_isValidCallBag h.1
  exact ⟨entries, rfl, h.1, h.2⟩

/-- JSON carries every field. -/
theorem carried_wireEnvelope (h : call.Timed now) (from_ : Text) :
    ∀ field ∈ wireEnvelope now call from_, ∀ v ∈ field.2, Carried v := by
  have hone : Carried (.num (JsArithmetic.ofNat 1) : Json N) := carried_literal (by decide)
  have hstring : ∀ (s : Option Text), ∀ v ∈ s.map (@Json.str N), Carried v := by
    intro s v hv
    obtain ⟨text, -, rfl⟩ := Option.map_eq_some_iff.1 hv
    trivial
  simp only [wireEnvelope, List.forall_mem_cons]
  refine ⟨?_, ?_, ?_, ?_, ?_, ?_, hstring _, ?_, ?_, hstring _, nofun⟩
  · rintro v ⟨⟩
    exact hone
  · rintro v ⟨⟩
    trivial
  · rintro v ⟨⟩
    exact carriedElements_strings call.callChain
  · intro v hv
    obtain ⟨deadline, hdeadline, rfl⟩ := Option.map_eq_some_iff.1 hv
    exact carried_remainingMs (h.remaining hdeadline)
  · rintro v ⟨⟩
    trivial
  · rintro v ⟨⟩
    exact hone
  · intro v hv
    split at hv
    · cases hv
      exact hone
    · cases hv
  · intro v hv
    obtain ⟨hbag, hcrosses⟩ := Option.mem_filter_iff.1 hv
    obtain ⟨entries, rfl, hvalid, -⟩ := bagCrosses_obj hcrosses
    exact carried_of_isValidCallBag hvalid (h.listed entries hbag)

/-- A header is parsed to the fields that it was made of. -/
theorem parse_encodeEnvelope (h : call.Timed now) (from_ : Text) :
    parseJson (encodeEnvelope now call from_) =
      some (.obj (present (wireEnvelope now call from_))) := by
  refine parseJson_asciiText ⟨?_, carriedMembers_present (carried_wireEnvelope h from_)⟩
  refine enumerated_present (map_fst_wireEnvelope now call from_ ▸ nodup_envelopeKeys) ?_
  intro field hfield
  refine indexOf_envelopeKeys field.1 ?_
  exact List.mem_map.2 ⟨field, hfield, rfl⟩

/-- What of a call is left behind the header, at another host's time. -/
def ActorCallContext.crossed (call : ActorCallContext N) (now now' : N) : ActorCallContext N where
  callChain := call.callChain
  callId := call.callId
  deadline := call.deadline.map fun deadline => JsArithmetic.add now' (remainingMs now deadline)
  traceparent := call.traceparent.filter isTraceparent
  oneWay := call.oneWay
  bag := call.bag.filter bagCrosses
  principal := call.principal.filter fun principal => !principal.isEmpty

/-- Each field is read back. -/
theorem own_wireEnvelope (now : N) (call : ActorCallContext N) (from_ key : Text) :
    own key (.obj (present (wireEnvelope now call from_))) =
      ((wireEnvelope now call from_).lookup key).join :=
  own_present (map_fst_wireEnvelope now call from_ ▸ nodup_envelopeKeys) key

omit [JsArithmetic N] in
theorem asStrings_strings (strings : List Text) :
    asStrings (.arr (strings.map .str) : Json N) = some strings := by
  rw [asStrings]
  induction strings with
  | nil => rfl
  | cons s strings ih =>
    rw [List.map_cons, List.mapM_cons, ih]
    rfl

omit [JsArithmetic N] in
theorem bind_asString (s : Option Text) : (s.map (@Json.str N)).bind asString = s := by
  cases s <;> rfl

theorem asBudget_remainingMs (h : call.Timed now) :
    asBudget (call.deadline.map fun deadline => .num (remainingMs now deadline)) =
      some (call.deadline.map (remainingMs now)) := by
  cases hdeadline : call.deadline with
  | none => rfl
  | some deadline =>
    rw [Option.map_some, Option.map_some, asBudget, if_pos (h.remaining hdeadline)]

theorem sanitizeWireBag_crosses (h : call.Timed now) :
    sanitizeWireBag (call.bag.filter bagCrosses) = call.bag.filter bagCrosses := by
  cases hbag : call.bag with
  | none => rfl
  | some bag =>
    rw [Option.filter_some]
    split
    case isFalse => rfl
    case isTrue hcrosses =>
      obtain ⟨entries, rfl, hvalid, hne⟩ := bagCrosses_obj hcrosses
      exact sanitizeWireBag_of_valid hvalid hne (h.listed entries hbag)

theorem isLiteral_oneWay (oneWay : Bool) :
    isLiteral 1 (if oneWay = true then some (.num (JsArithmetic.ofNat 1) : Json N) else none) =
      oneWay := by
  cases oneWay with
  | false => rfl
  | true => exact JsArithmetic.strictEq_ofNat 1

/-- A host decodes what another encoded. -/
theorem decodeEnvelope_encodeEnvelope (h : call.Timed now) (from_ : Text) (now' : N) :
    decodeEnvelope now' (encodeEnvelope now call from_) =
      .ok { call := call.crossed now now', from_ := from_ } := by
  have hown := own_wireEnvelope now call from_
  have hsafe : JsArithmetic.isSafeInteger (JsArithmetic.ofNat 1 : N) = true :=
    JsArithmetic.isSafeInteger_ofNat 1 (by decide)
  have hhops : JsArithmetic.gt (JsArithmetic.ofNat 1 : N) (JsArithmetic.ofNat maxHops) = false :=
    JsArithmetic.gt_ofNat 1 (by decide) 8 (by decide)
  have hv : own vKey (.obj (present (wireEnvelope now call from_))) =
      some (.num (JsArithmetic.ofNat hostProto)) := (hown vKey).trans rfl
  have hcallId : own callIdKey (.obj (present (wireEnvelope now call from_))) =
      some (.str call.callId) := (hown callIdKey).trans rfl
  have hchain : own chainKey (.obj (present (wireEnvelope now call from_))) =
      some (.arr (call.callChain.map .str)) := (hown chainKey).trans rfl
  have hremaining : own remainingMsKey (.obj (present (wireEnvelope now call from_))) =
      call.deadline.map fun deadline => .num (remainingMs now deadline) :=
    (hown remainingMsKey).trans rfl
  have hfrom : own fromKey (.obj (present (wireEnvelope now call from_))) = some (.str from_) :=
    (hown fromKey).trans rfl
  have hhop : own hopsKey (.obj (present (wireEnvelope now call from_))) =
      some (.num (JsArithmetic.ofNat 1)) := (hown hopsKey).trans rfl
  have htp : own tpKey (.obj (present (wireEnvelope now call from_))) =
      (call.traceparent.filter isTraceparent).map .str := (hown tpKey).trans rfl
  have how : own owKey (.obj (present (wireEnvelope now call from_))) =
      if call.oneWay = true then some (.num (JsArithmetic.ofNat 1)) else none :=
    (hown owKey).trans rfl
  have hbag : own bagKey (.obj (present (wireEnvelope now call from_))) =
      call.bag.filter bagCrosses := (hown bagKey).trans rfl
  have hpr : own prKey (.obj (present (wireEnvelope now call from_))) =
      (call.principal.filter fun principal => !principal.isEmpty).map .str :=
    (hown prKey).trans rfl
  have hproto : isLiteral hostProto (some (.num (JsArithmetic.ofNat hostProto) : Json N)) = true :=
    JsArithmetic.strictEq_ofNat hostProto
  rw [decodeEnvelope, parse_encodeEnvelope h]
  simp only [hv, hproto, hcallId, hchain, hremaining, hfrom, hhop, htp, how, hbag, hpr,
    Option.bind_some, asString, asStrings_strings, asSafeInteger, hsafe, if_true,
    asBudget_remainingMs h, hhops, Bool.false_eq_true, if_false, bind_asString, isLiteral_oneWay,
    sanitizeWireBag_crosses h, Option.filter_filter, Bool.and_self, Option.map_map]
  have hmax : (fun remaining : N => JsArithmetic.add now'
      (JsArithmetic.max (JsArithmetic.ofNat 0) remaining)) ∘ remainingMs now =
        fun deadline => JsArithmetic.add now' (remainingMs now deadline) :=
    funext fun _ => congrArg (JsArithmetic.add now') (JsArithmetic.max_max _)
  rw [hmax]
  rfl

/-- What is decoded of a header comes from its JSON. -/
theorem parsed_of_decodeEnvelope {header : Text} {d : DecodedEnvelope N}
    (h : decodeEnvelope now header = .ok d) :
    ∃ parsed, parseJson header = some parsed ∧ d.call.bag = sanitizeWireBag (own bagKey parsed) := by
  unfold decodeEnvelope at h
  split at h
  case h_1 => cases h
  case h_2 => cases h
  case h_3 parsed _ hparsed =>
    refine ⟨parsed, hparsed, ?_⟩
    split at h
    case isFalse => cases h
    case isTrue =>
      split at h
      case h_2 => cases h
      case h_1 =>
        split at h
        case isTrue => cases h
        case isFalse =>
          obtain rfl := Except.ok.inj h
          rfl

end

/-- A call with half a surrogate pair in its chain, and with a bag. -/
def sentCall : ActorCallContext Int where
  callChain := [[0xD83D], spell ['a', '/', '%']]
  callId := [0xE9, 0x0A]
  deadline := some 1500
  oneWay := true
  bag := some (.obj [(spell ['u'], .str [0x2028])])
  principal := some (spell ['p'])

end SigxActors.Cluster
