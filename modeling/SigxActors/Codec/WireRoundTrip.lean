/-
  Codec/WireRoundTrip.lean --- the calls that come back from their path.

  Two things are taken of a path on its way.  The URL takes dots, that a method or a
  token may be, and the mount may have.  The stripper takes the marker and a segment
  behind it, also where they are the type's own and the call has no token.
-/
import SigxActors.Codec.WireAddress

set_option autoImplicit false

namespace SigxActors.Codec

open SigxActors.Js

/-! ## Symbols -/

theorem hash_ne_slash : hash ≠ slash := by decide

/-- The segments of a text and one more. -/
theorem joinSegments_snoc (type method : Text) :
    joinSegments (segmentsOf type ++ [method]) = type ++ slash :: method := by
  rw [joinSegments_append (segmentsOf_ne_nil type) (List.cons_ne_nil _ _), joinSegments_segmentsOf,
    joinSegments_single]

variable {method type base : Text}

theorem segmentsOf_snoc (h : slash ∉ method) (type : Text) :
    segmentsOf (type ++ slash :: method) = segmentsOf type ++ [method] := by
  rw [segmentsOf_append, segmentsOf_single h]

/-- A text is not cut at two units so that each is missing behind the other. -/
theorem append_cut_ne {c c' : UInt16} (hne : c ≠ c') {a b a' b' : Text} (hb : c' ∉ b)
    (hb' : c ∉ b') : a ++ c :: b ≠ a' ++ c' :: b' := by
  intro h
  rcases List.append_eq_append_iff.1 h with ⟨z, -, hz⟩ | ⟨z, -, hz⟩
  · cases z with
    | nil => exact hne (List.cons.inj hz).1
    | cons u z =>
      obtain ⟨-, rfl⟩ := List.cons.inj hz
      exact hb (by simp)
  · cases z with
    | nil => exact hne (List.cons.inj hz).1.symm
    | cons u z =>
      obtain ⟨-, rfl⟩ := List.cons.inj hz
      exact hb' (by simp)

/-- What is joined ends with its last segment. -/
theorem joinSegments_concat (init : List Text) (last : Text) :
    joinSegments (init ++ [last]) = last ∨
      ∃ front, joinSegments (init ++ [last]) = front ++ slash :: last := by
  by_cases h : init = []
  · subst h
    exact .inl (joinSegments_single last)
  · right
    exact ⟨joinSegments init, by
      rw [joinSegments_append h (List.cons_ne_nil _ _), joinSegments_single]⟩

/-- The symbol that is read of segments, of which the last has no `#`. -/
theorem canonicalSymbol_joinSegments {init : List Text} {last : Text}
    (hslash : ∀ s ∈ init ++ [last], slash ∉ s) (hlast : hash ∉ last) (hmethod : hash ∉ method)
    (hsingle : slash ∉ method) :
    canonicalSymbol (joinSegments (init ++ [last])) = type ++ hash :: method ↔
      init ++ [last] = segmentsOf type ++ [method] ∧ hash ∉ type ∧ type ≠ [] ∧ method ≠ [] := by
  have hne : init ++ [last] ≠ [] := List.concat_ne_nil _ _
  have hsplit := segmentsOf_joinSegments hslash hne
  have hsymbol : type ++ hash :: method ≠ [] :=
    List.append_ne_nil_of_right_ne_nil _ (List.cons_ne_nil _ _)
  constructor
  · intro h
    unfold canonicalSymbol at h
    split at h
    case h_1 =>
      split at h
      case isTrue => exact absurd h.symm hsymbol
      case isFalse =>
        -- the symbol is what was joined, and would have its `#` in the last segment
        rcases joinSegments_concat init last with hjoin | ⟨front, hjoin⟩
        · rw [hjoin] at h
          exact absurd (by rw [h]; simp) hlast
        · rw [hjoin] at h
          exact absurd h (append_cut_ne hash_ne_slash.symm hlast hsingle)
    case h_2 hnone =>
      split at h
      case h_1 before behind hcut =>
        split at h
        case isTrue => exact absurd h.symm hsymbol
        case isFalse hends =>
          obtain ⟨hjoin, -⟩ := eq_of_splitLast hcut
          have hnot := splitLast_eq_none.1 hnone
          rw [hjoin, List.mem_append, List.mem_cons, not_or, not_or] at hnot
          obtain ⟨rfl, rfl⟩ := append_last_inj hnot.2.2 hmethod h
          rw [hjoin, segmentsOf_snoc hsingle] at hsplit
          exact ⟨hsplit.symm, hnot.1, fun heq => hends (.inl heq), fun heq => hends (.inr heq)⟩
      case h_2 => exact absurd h.symm hsymbol
  · rintro ⟨heq, htype, htypeNe, hmethodNe⟩
    have hnot : hash ∉ type ++ slash :: method := by
      rw [List.mem_append, List.mem_cons, not_or, not_or]
      exact ⟨htype, hash_ne_slash, hmethod⟩
    have hends : ¬ (type = [] ∨ method = []) := not_or.2 ⟨htypeNe, hmethodNe⟩
    rw [heq, joinSegments_snoc, canonicalSymbol, splitLast_eq_none.2 hnot, splitLast_append hsingle]
    dsimp only
    rw [if_neg hends]

/-! ## What is taken -/

/-- The stripper leaves the last segment. -/
theorem dropRoute_concat (init : List Text) (last : Text) :
    ∃ kept, dropRoute (init ++ [last]) = kept ++ [last] ∧ kept ⊆ init := by
  match init with
  | [] => exact ⟨[], rfl, List.Subset.refl _⟩
  | [s] => exact ⟨[s], rfl, List.Subset.refl _⟩
  | s :: t :: rest =>
    obtain ⟨u, tail, htail⟩ : ∃ u tail, rest ++ [last] = u :: tail :=
      List.exists_cons_of_ne_nil (List.concat_ne_nil _ _)
    rw [List.cons_append, List.cons_append, htail, dropRoute, ← htail]
    split
    case isTrue => exact ⟨rest, rfl, fun x hx => .tail _ (.tail _ hx)⟩
    case isFalse => exact ⟨s :: t :: rest, rfl, List.Subset.refl _⟩

theorem routedSegments_concat (token : Option Text) (init : List Text) (last : Text) :
    ∃ kept, routedSegments token (init ++ [last]) = kept ++ [last] ∧
      kept ⊆ actorRouteSegment :: init := by
  have hdrop : ∃ kept, dropRoute (init ++ [last]) = kept ++ [last] ∧
      kept ⊆ actorRouteSegment :: init := by
    obtain ⟨kept, hkept, hsub⟩ := dropRoute_concat init last
    exact ⟨kept, hkept, List.subset_cons_of_subset _ hsub⟩
  cases token with
  | none => exact hdrop
  | some token =>
    rw [routedSegments]
    split
    case isTrue => exact hdrop
    case isFalse =>
      split
      case isTrue => exact dropRoute_concat (actorRouteSegment :: init) last
      case isFalse => exact ⟨init, rfl, List.subset_cons_self _ _⟩

theorem settledSegments_concat (type : List Text) (method : Text) :
    ∃ init last, settledSegments type method = init ++ [last] ∧ init ⊆ type ∧
      (last = [] ∨ last = method ∧ method ≠ oneDot ∧ method ≠ twoDots ∧ init = type) := by
  unfold settledSegments
  split
  case isTrue => exact ⟨type.dropLast, [], rfl, List.dropLast_subset _, .inl rfl⟩
  case isFalse htwo =>
    split
    case isTrue => exact ⟨type, [], rfl, List.Subset.refl _, .inl rfl⟩
    case isFalse hone =>
      exact ⟨type, method, rfl, List.Subset.refl _, .inr ⟨rfl, hone, htwo, rfl⟩⟩

/-- The marker and a segment are the type's own. -/
theorem dropRoute_eq_iff (type method : Text) :
    dropRoute (segmentsOf type ++ [method]) = segmentsOf type ++ [method] ↔
      ¬ actorRouteSegment ++ [slash] <+: type := by
  have hjoin := joinSegments_segmentsOf type
  have hslash : ∀ s ∈ segmentsOf type, slash ∉ s := slash_notMem_segmentsOf
  match htype : segmentsOf type with
  | [] => exact absurd htype (segmentsOf_ne_nil type)
  | [s] =>
    rw [htype, joinSegments_single] at hjoin
    subst hjoin
    refine iff_of_true rfl ?_
    rintro ⟨tail, htail⟩
    exact hslash s (htype ▸ .head _) (by rw [← htail]; simp)
  | s :: t :: rest =>
    rw [htype, joinSegments_cons (List.cons_ne_nil _ _)] at hjoin
    rw [← hjoin, marker_prefix_iff (hslash s (htype ▸ .head _))]
    obtain ⟨u, tail, htail⟩ : ∃ u tail, rest ++ [method] = u :: tail :=
      List.exists_cons_of_ne_nil (List.concat_ne_nil _ _)
    rw [List.cons_append, List.cons_append, htail, dropRoute]
    by_cases hs : s = actorRouteSegment
    · rw [if_pos hs]
      refine iff_of_false (fun heq => ?_) (fun hnot => hnot hs)
      have hlength := congrArg List.length heq
      simp at hlength
    · rw [if_neg hs]
      exact iff_of_true rfl hs

/-- Nothing of the call is taken. -/
def Untaken (token : Option Text) (type : Text) : Prop :=
  token ≠ some oneDot ∧
    (token = none ∨ token = some twoDots → ¬ actorRouteSegment ++ [slash] <+: type)

theorem routedSegments_eq_iff (token : Option Text) (type method : Text) :
    routedSegments token (segmentsOf type ++ [method]) = segmentsOf type ++ [method] ↔
      Untaken token type := by
  have hdots : oneDot ≠ twoDots := by decide
  have hdrop := dropRoute_eq_iff type method
  unfold Untaken
  cases token with
  | none => simpa [routedSegments] using hdrop
  | some token =>
    rw [routedSegments]
    by_cases htwo : token = twoDots
    · subst htwo
      simpa [hdots.symm] using hdrop
    rw [if_neg htwo]
    by_cases hone : token = oneDot
    · subst hone
      refine iff_of_false (fun heq => ?_) (fun hnot => hnot.1 rfl)
      obtain ⟨s, rest, hsegments⟩ := List.exists_cons_of_ne_nil (segmentsOf_ne_nil type)
      obtain ⟨u, tail, htail⟩ : ∃ u tail, rest ++ [method] = u :: tail :=
        List.exists_cons_of_ne_nil (List.concat_ne_nil _ _)
      rw [hsegments, List.cons_append, htail, dropRoute, if_pos rfl] at heq
      have hlength := congrArg List.length heq
      simp at hlength
    · rw [if_neg hone]
      exact iff_of_true rfl ⟨by simpa using hone, by simp [htwo]⟩

/-- The symbol comes back where neither the dots nor the stripper take anything. -/
theorem canonicalSymbol_routed (hmethod : hash ∉ method) (hsingle : slash ∉ method)
    (token : Option Text) : canonicalSymbol (joinSegments (routedSegments token
        (settledSegments (segmentsOf type) method))) = type ++ hash :: method ↔
      Untaken token type ∧ (method ≠ oneDot ∧ method ≠ twoDots) ∧ hash ∉ type ∧ type ≠ [] ∧
        method ≠ [] := by
  obtain ⟨init, last, hsettled, hinit, hlast⟩ := settledSegments_concat (segmentsOf type) method
  obtain ⟨kept, hkept, hsub⟩ := routedSegments_concat token init last
  have hlastNot : hash ∉ last ∧ slash ∉ last := by
    rcases hlast with rfl | ⟨rfl, -⟩
    · exact ⟨List.not_mem_nil, List.not_mem_nil⟩
    · exact ⟨hmethod, hsingle⟩
  have hslash : ∀ s ∈ kept ++ [last], slash ∉ s := by
    intro s hs
    rcases List.mem_append.1 hs with hs | hs
    · rcases List.mem_cons.1 (hsub hs) with rfl | hs
      · exact written_route.2
      · exact slash_notMem_segmentsOf s (hinit hs)
    · exact List.mem_singleton.1 hs ▸ hlastNot.2
  rw [hsettled, hkept, canonicalSymbol_joinSegments hslash hlastNot.1 hmethod hsingle]
  constructor
  · rintro ⟨heq, htype, htypeNe, hmethodNe⟩
    obtain ⟨-, hend⟩ := List.append_inj' heq rfl
    obtain rfl : last = method := (List.cons.inj hend).1
    obtain hnil | ⟨-, hone, htwo, rfl⟩ := hlast
    · exact absurd hnil hmethodNe
    · rw [← hkept, routedSegments_eq_iff] at heq
      exact ⟨heq, ⟨hone, htwo⟩, htype, htypeNe, hmethodNe⟩
  · rintro ⟨huntaken, ⟨hone, htwo⟩, htype, htypeNe, hmethodNe⟩
    rw [settledSegments, if_neg htwo, if_neg hone] at hsettled
    rw [← hkept, ← hsettled]
    exact ⟨(routedSegments_eq_iff token type _).2 huntaken, htype, htypeNe, hmethodNe⟩

/-! ## What can be written -/

theorem wellFormed_split {a b : Text} {c : UInt16} (hlead : ¬ isLead c) (htrail : ¬ isTrail c)
    (h : WellFormed (a ++ c :: b)) : WellFormed a ∧ WellFormed b := by
  generalize htext : a ++ c :: b = text at h
  induction h generalizing a with
  | nil => cases a <;> cases htext
  | unit hu hu' hrest ih =>
    cases a with
    | nil =>
      obtain ⟨rfl, rfl⟩ := List.cons.inj htext
      exact ⟨.nil, hrest⟩
    | cons u a =>
      obtain ⟨rfl, rfl⟩ := List.cons.inj htext
      exact ⟨.unit hu hu' (ih rfl).1, (ih rfl).2⟩
  | pair hu hv _ ih =>
    cases a with
    | nil =>
      cases htext
      exact absurd hu hlead
    | cons u a =>
      cases a with
      | nil =>
        cases htext
        exact absurd hv htrail
      | cons v a =>
        cases htext
        exact ⟨.pair hu hv (ih rfl).1, (ih rfl).2⟩

theorem wellFormed_joinSegments {segments : List Text} :
    WellFormed (joinSegments segments) ↔ ∀ s ∈ segments, WellFormed s := by
  have hlead : ¬ isLead slash := by decide
  have htrail : ¬ isTrail slash := by decide
  induction segments with
  | nil => exact iff_of_true .nil nofun
  | cons s segments ih =>
    by_cases hnil : segments = []
    · subst hnil
      rw [joinSegments_single, List.forall_mem_singleton]
    rw [joinSegments_cons hnil, List.forall_mem_cons]
    constructor
    · intro h
      obtain ⟨hs, hrest⟩ := wellFormed_split hlead htrail h
      exact ⟨hs, ih.1 hrest⟩
    · rintro ⟨hs, hrest⟩
      exact hs.append (.unit hlead htrail (ih.2 hrest))

theorem mapM_encodeSegment_isSome {segments : List Text} :
    (∃ written, segments.mapM encodeSegment = some written) ↔ ∀ s ∈ segments, WellFormed s := by
  induction segments with
  | nil => exact iff_of_true ⟨[], rfl⟩ nofun
  | cons s segments ih =>
    rw [List.forall_mem_cons, ← ih, List.mapM_cons]
    constructor
    · rintro ⟨written, h⟩
      obtain ⟨t, ht, h⟩ := Option.bind_eq_some_iff.1 h
      obtain ⟨rest, hrest, -⟩ := Option.bind_eq_some_iff.1 h
      exact ⟨wellFormed_of_encodeSegment ht, rest, hrest⟩
    · rintro ⟨hs, rest, hrest⟩
      obtain ⟨t, ht⟩ := encodeSegment_of_wellFormed hs
      exact ⟨t :: rest, by rw [ht, hrest]; rfl⟩

/-- A path is written of a call whose texts can be percent-encoded. -/
theorem routePath_isSome (hmethod : hash ∉ method) (hsingle : slash ∉ method) (base : Text)
    (token : Option Text) : (∃ path, routePath base token (type ++ hash :: method) = some path) ↔
      WellFormed type ∧ WellFormed method ∧ ∀ t ∈ token, WellFormed t := by
  have htype : (∃ written, (segmentsOf type).mapM encodeSegment = some written) ↔ WellFormed type := by
    rw [mapM_encodeSegment_isSome, ← wellFormed_joinSegments, joinSegments_segmentsOf]
  unfold routePath encodeSymbolPath
  rw [splitLast_append hmethod]
  dsimp only
  rw [if_neg hsingle, ← htype]
  constructor
  · rintro ⟨path, h⟩
    obtain ⟨encoded, hencoded, h⟩ := Option.bind_eq_some_iff.1 h
    obtain ⟨written, hwritten, hencoded⟩ := Option.bind_eq_some_iff.1 hencoded
    obtain ⟨m, hm, -⟩ := Option.map_eq_some_iff.1 hencoded
    refine ⟨⟨written, hwritten⟩, wellFormed_of_encodeSegment hm, fun t ht => ?_⟩
    obtain rfl := ht
    obtain ⟨t', ht', -⟩ := Option.map_eq_some_iff.1 h
    exact wellFormed_of_encodeURIComponent ht'
  · rintro ⟨⟨written, hwritten⟩, hm, htoken⟩
    obtain ⟨m, hm⟩ := encodeSegment_of_wellFormed hm
    rw [hwritten, Option.bind_some, hm, Option.map_some, Option.bind_some]
    cases token with
    | none => exact ⟨_, rfl⟩
    | some token =>
      obtain ⟨t, ht, -⟩ := encodeURIComponent_of_wellFormed (htoken token rfl)
      exact ⟨_, by dsimp only; rw [ht]; rfl⟩

/-! ## Calls -/

/-- A call that the client writes a path for. -/
structure WireCall where
  route : ActorRouteToken
  type : Text
  key : Text
  method : Text
  accepted : Accepted type
  single : slash ∉ method

/-- The token that its route mode gives it. -/
def WireCall.token (c : WireCall) : Option Text := routeTokenFor c.route c.type c.key

def WireCall.symbol (c : WireCall) : Text := symbolOf c.type c.method

def WireCall.path (base : Text) (c : WireCall) : Option Text := routePath base c.token c.symbol

/-- The server reads the symbol that the client wrote. -/
def RoundTrips (base : Text) (c : WireCall) : Prop :=
  ∃ path, c.path base = some path ∧ receivedSymbol base path = some c.symbol

/-- The stripper leaves a path that has no token. -/
def Unstripped (base : Text) (c : WireCall) : Prop :=
  c.token = none → ∀ path, c.path base = some path → stripRoutePath (pathnameOf path) base = none

/-- Its texts can be written, its method is a segment, and nothing of it is taken. -/
structure Addressable (base : Text) (c : WireCall) : Prop where
  mounted : Mounted base
  written : WellFormed c.type ∧ WellFormed c.method ∧ ∀ t ∈ c.token, WellFormed t
  hash : hash ∉ c.method
  nonempty : c.method ≠ []
  dots : c.method ≠ oneDot ∧ c.method ≠ twoDots
  untaken : Untaken c.token c.type

theorem Accepted.undotted (h : Accepted type) : Undotted (segmentsOf type) :=
  fun s hs => (h.segments s hs).2

/-- A text at the end of the last segment does not make it dots. -/
theorem undotted_append {rest : Text} (h : Undotted (segmentsOf type)) (hrest : slash ∉ rest) :
    Undotted (segmentsOf (type ++ hash :: rest)) := by
  obtain hnil | ⟨init, last, hsegments⟩ := List.eq_nil_or_concat (segmentsOf type)
  · exact absurd hnil (segmentsOf_ne_nil type)
  rw [List.concat_eq_append] at hsegments
  have hslash : ∀ s ∈ segmentsOf type, slash ∉ s := slash_notMem_segmentsOf
  rw [hsegments] at h hslash
  have hlast : slash ∉ last ++ hash :: rest := by
    rw [List.mem_append, List.mem_cons, not_or, not_or]
    exact ⟨hslash last (by simp), hash_ne_slash.symm, hrest⟩
  have hjoin : type ++ hash :: rest = joinSegments (init ++ [last ++ hash :: rest]) := by
    rw [← joinSegments_segmentsOf type, hsegments]
    by_cases hinit : init = []
    · subst hinit
      rw [List.nil_append, List.nil_append, joinSegments_single, joinSegments_single]
    · rw [joinSegments_append hinit (List.cons_ne_nil _ _),
        joinSegments_append hinit (List.cons_ne_nil _ _), joinSegments_single, joinSegments_single,
        List.append_assoc, List.cons_append]
  have hall : ∀ s ∈ init ++ [last ++ hash :: rest], slash ∉ s := by
    intro s hs
    rcases List.mem_append.1 hs with hs | hs
    · exact hslash s (List.mem_append_left _ hs)
    · exact List.mem_singleton.1 hs ▸ hlast
  rw [hjoin, segmentsOf_joinSegments hall
    (List.concat_ne_nil _ _)]
  intro s hs
  rcases List.mem_append.1 hs with hs | hs
  · exact h s (List.mem_append_left _ hs)
  obtain rfl := List.mem_singleton.1 hs
  have hin : hash ∈ last ++ hash :: rest := by simp
  constructor
  all_goals
    intro heq
    exact absurd (heq ▸ hin) (by decide)

/-- Nothing comes back of a mount with dots. -/
theorem receivedSymbol_of_dots {path : Text} {token : Option Text} (hbase : IsPath base)
    (hmounted : ¬ Mounted base) (hmethod : hash ∉ method)
    (h : routePath base token (type ++ hash :: method) = some path) :
    receivedSymbol base path = some [] := by
  obtain ⟨front, written, m, -, -, -, rfl⟩ := segments_of_routePath hmethod h
  have hnot := not_prefix_of_dots hbase hmounted (joinSegments (front ++ (written ++ [m])))
  rw [← List.isPrefixOf_iff_prefix] at hnot
  have hstrip : stripRoutePath (pathnameOf (prefixOf base ++ joinSegments (front ++ (written ++ [m]))))
      base = none := if_neg hnot
  rw [receivedSymbol, hstrip]
  exact if_neg hnot

/-- The symbol of a call at its last `#`. -/
theorem WireCall.symbol_cases (c : WireCall) :
    hash ∉ c.method ∨ ∃ before behind, c.symbol = (c.type ++ hash :: before) ++ hash :: behind ∧
      hash ∉ behind ∧ slash ∉ behind ∧ Undotted (segmentsOf (c.type ++ hash :: before)) := by
  by_cases hmethod : hash ∈ c.method
  · cases hcut : splitLast hash c.method with
    | none => exact absurd hmethod (splitLast_eq_none.1 hcut)
    | some pair =>
      obtain ⟨before, behind⟩ := pair
      obtain ⟨heq, hbehind⟩ := eq_of_splitLast hcut
      have hsingle := c.single
      rw [heq, List.mem_append, List.mem_cons, not_or, not_or] at hsingle
      refine .inr ⟨before, behind, ?_, hbehind, hsingle.2.2,
        undotted_append c.accepted.undotted hsingle.1⟩
      rw [WireCall.symbol, symbolOf, heq, List.append_assoc]
      rfl
  · exact .inl hmethod

/-- A call comes back exactly where it can be addressed. -/
theorem roundTrips_iff_addressable (hbase : IsPath base) (c : WireCall) :
    RoundTrips base c ↔ Addressable base c := by
  have hne : c.symbol ≠ [] := List.append_ne_nil_of_right_ne_nil _ (List.cons_ne_nil _ _)
  rcases c.symbol_cases with hmethod | ⟨before, behind, hsymbol, hbehind, hsingle, hdots⟩
  · have hroutes : (∃ path, c.path base = some path) ↔ _ :=
      routePath_isSome hmethod c.single base c.token
    constructor
    · rintro ⟨path, hpath, hreceived⟩
      by_cases hmounted : Mounted base
      · rw [receivedSymbol_routePath hbase hmounted c.accepted.undotted hmethod hpath,
          Option.some.injEq] at hreceived
        obtain ⟨huntaken, hdots, -, -, hnonempty⟩ :=
          (canonicalSymbol_routed hmethod c.single c.token).1 hreceived
        exact ⟨hmounted, hroutes.1 ⟨path, hpath⟩, hmethod, hnonempty, hdots, huntaken⟩
      · rw [receivedSymbol_of_dots hbase hmounted hmethod hpath, Option.some.injEq] at hreceived
        exact absurd hreceived.symm hne
    · intro h
      obtain ⟨path, hpath⟩ := hroutes.2 h.written
      refine ⟨path, hpath, ?_⟩
      rw [receivedSymbol_routePath hbase h.mounted c.accepted.undotted hmethod hpath,
        Option.some.injEq]
      exact (canonicalSymbol_routed hmethod c.single c.token).2
        ⟨h.untaken, h.dots, c.accepted.hash, c.accepted.nonempty, h.nonempty⟩
  · refine iff_of_false ?_ fun h => h.hash ?_
    · -- the type would end at the last `#`, and have one in it
      rintro ⟨path, hpath, hreceived⟩
      rw [WireCall.path, hsymbol] at hpath
      by_cases hmounted : Mounted base
      · rw [receivedSymbol_routePath hbase hmounted hdots hbehind hpath, hsymbol,
          Option.some.injEq] at hreceived
        obtain ⟨-, -, hnot, -⟩ := (canonicalSymbol_routed hbehind hsingle c.token).1 hreceived
        exact hnot (by simp)
      · rw [receivedSymbol_of_dots hbase hmounted hbehind hpath, Option.some.injEq] at hreceived
        exact hne hreceived.symm
    · have hin : c.method = before ++ hash :: behind := by
        rw [WireCall.symbol, symbolOf, List.append_assoc, List.append_cancel_left_eq] at hsymbol
        exact (List.cons.inj hsymbol).2
      rw [hin]
      simp

/-- Nothing is stripped of a call without a token that can be addressed. -/
theorem Addressable.unstripped (hbase : IsPath base) {c : WireCall} (h : Addressable base c) :
    Unstripped base c := by
  intro htoken path hpath
  obtain ⟨kept, left, hpathname, hslash, -, hkept, hwritten, -⟩ :=
    pathname_routePath hbase h.mounted c.accepted.undotted h.hash hpath
  obtain rfl := hkept htoken
  rw [List.nil_append] at hpathname hslash
  rw [settledSegments, if_neg h.dots.2, if_neg h.dots.1] at hwritten
  have hdrop := (dropRoute_eq_iff c.type c.method).2 (h.untaken.2 (.inl htoken))
  rw [hpathname, stripRoutePath_mount hslash, if_pos ((dropRoute_eq_iff_of_forall₂ hwritten).2 hdrop)]

/-- Of two calls that come back the paths are different where the symbols are. -/
theorem RoundTrips.path_inj {path : Text} {c d : WireCall} (hc : RoundTrips base c)
    (hd : RoundTrips base d) (hcpath : c.path base = some path) (hdpath : d.path base = some path) :
    c.symbol = d.symbol := by
  obtain ⟨path', hpath', hc⟩ := hc
  cases hcpath.symm.trans hpath'
  obtain ⟨path', hpath', hd⟩ := hd
  cases hdpath.symm.trans hpath'
  exact Option.some.inj (hc.symm.trans hd)

/-- The paths of two calls are read back, are not stripped and tell them apart. -/
def PathsAgree (base : Text) (c d : WireCall) : Prop :=
  (RoundTrips base c ∧ Unstripped base c) ∧ (RoundTrips base d ∧ Unstripped base d) ∧
    ∀ path, c.path base = some path → d.path base = some path →
      c.type = d.type ∧ c.method = d.method

theorem paths_agree_iff {base : Text} (hbase : IsPath base) (c d : WireCall) :
    PathsAgree base c d ↔ Addressable base c ∧ Addressable base d := by
  have hc := roundTrips_iff_addressable hbase c
  have hd := roundTrips_iff_addressable hbase d
  constructor
  · rintro ⟨⟨hctrip, -⟩, ⟨hdtrip, -⟩, -⟩
    exact ⟨hc.1 hctrip, hd.1 hdtrip⟩
  · rintro ⟨hcall, hcall'⟩
    refine ⟨⟨hc.2 hcall, hcall.unstripped hbase⟩, ⟨hd.2 hcall', hcall'.unstripped hbase⟩, ?_⟩
    intro path hpath hpath'
    exact append_last_inj hcall.hash hcall'.hash ((hc.2 hcall).path_inj (hd.2 hcall') hpath hpath')

/-- `/_sigx/actor`. -/
def actorBase : Text := spell ['/', '_', 's', 'i', 'g', 'x', '/', 'a', 'c', 't', 'o', 'r']

/-- A call of `Cart` with the key in its path. -/
def cartCall : WireCall where
  route := .key
  type := spell ['C', 'a', 'r', 't']
  key := spell ['p', '/', '9']
  method := spell ['a', 'd', 'd']
  accepted := ⟨by decide, by decide, by decide, by decide +kernel, by decide⟩
  single := by decide

theorem isPath_actorBase : IsPath actorBase := .inr rfl

theorem paths_agree_cartCall : PathsAgree actorBase cartCall cartCall := by
  have hmounted : Mounted actorBase := by
    have hall : (mountSegments actorBase).all (fun s => decide (Plain s)) = true := by decide +kernel
    intro s hs
    exact of_decide_eq_true (List.all_eq_true.1 hall s hs)
  have htype : encodeURIComponent cartCall.type = some cartCall.type := by decide +kernel
  have hmethod : encodeURIComponent cartCall.method = some cartCall.method := by decide +kernel
  have hkey : encodeURIComponent cartCall.key =
      some (spell ['p', '%', '2', 'F', '9']) := by decide +kernel
  have htoken : ∀ t ∈ cartCall.token, WellFormed t := by
    rintro t ht
    obtain rfl := Option.some.inj (ht : some cartCall.key = some t)
    exact wellFormed_of_encodeURIComponent hkey
  have haddressable : Addressable actorBase cartCall :=
    ⟨hmounted, ⟨wellFormed_of_encodeURIComponent htype, wellFormed_of_encodeURIComponent hmethod,
      htoken⟩, by decide, by decide, by decide, by decide, by
        rintro (htoken | htoken)
        · exact absurd htoken (by decide)
        · exact absurd htoken (by decide)⟩
  exact (paths_agree_iff isPath_actorBase cartCall cartCall).2 ⟨haddressable, haddressable⟩

/-- A call of a type that begins with the marker, without a token. -/
def markerCall : WireCall where
  route := .none
  type := spell ['r', '/', 'a', '/', 'b']
  key := spell ['k']
  method := spell ['m']
  accepted := ⟨by decide, by decide, by decide, by decide +kernel, by decide⟩
  single := by decide

/-- The stripper takes the marker and the segment behind it for a token. -/
theorem not_paths_agree_markerCall : ¬ PathsAgree actorBase markerCall markerCall := by
  have hread : (markerCall.path actorBase).bind (receivedSymbol actorBase) =
      some (spell ['b', '#', 'm']) := by decide +kernel
  rintro ⟨⟨⟨path, hpath, hreceived⟩, -⟩, -⟩
  rw [hpath, Option.bind_some, hreceived] at hread
  exact absurd hread (by decide +kernel)

end SigxActors.Codec
