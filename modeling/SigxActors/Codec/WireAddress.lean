/-
  Codec/WireAddress.lean --- which calls come back from their path.

  A path is a mount, a marker and a token where there is one, the segments of the type
  and the method.  What the server reads of it depends on the segments alone, so that is
  said first: what the dots of a method or a token leave, and what the route stripper
  takes.  A call comes back where nothing of it is taken.
-/
import Mathlib.Data.List.Forall2
import SigxActors.Codec.WireSegments

set_option autoImplicit false

namespace SigxActors.Codec

open SigxActors.Js

/-! ## The last separator -/

variable {c : UInt16} {base method : Text} {segments S D rest : List Text} {token : Option Text}

theorem splitLast_append {behind : Text} (h : c ∉ behind) (before : Text) :
    splitLast c (before ++ c :: behind) = some (before, behind) := by
  have hnone : ∀ {text : Text}, c ∉ text → splitLast c text = none := by
    intro text
    induction text with
    | nil => exact fun _ => rfl
    | cons u text ih =>
      intro hnot
      rw [List.mem_cons, not_or] at hnot
      rw [splitLast, ih hnot.2]
      exact if_neg (fun heq => hnot.1 heq.symm)
  induction before with
  | nil =>
    rw [List.nil_append, splitLast, hnone h]
    exact if_pos rfl
  | cons u before ih => rw [List.cons_append, splitLast, ih]

theorem splitLast_eq_none {text : Text} : splitLast c text = none ↔ c ∉ text := by
  constructor
  · intro h hin
    obtain ⟨before, behind, rfl, hbehind⟩ : ∃ before behind, text = before ++ c :: behind ∧
        c ∉ behind := by
      clear h
      induction text with
      | nil => cases hin
      | cons u text ih =>
        by_cases hrest : c ∈ text
        · obtain ⟨before, behind, rfl, hbehind⟩ := ih hrest
          exact ⟨u :: before, behind, rfl, hbehind⟩
        · obtain rfl : c = u := (List.mem_cons.1 hin).resolve_right hrest
          exact ⟨[], text, rfl, hrest⟩
    rw [splitLast_append hbehind] at h
    cases h
  · intro h
    induction text with
    | nil => rfl
    | cons u text ih =>
      rw [List.mem_cons, not_or] at h
      rw [splitLast, ih h.2]
      exact if_neg (fun heq => h.1 heq.symm)

theorem eq_of_splitLast {text before behind : Text} (h : splitLast c text = some (before, behind)) :
    text = before ++ c :: behind ∧ c ∉ behind := by
  induction text generalizing before behind with
  | nil => cases h
  | cons u text ih =>
    rw [splitLast] at h
    cases hrest : splitLast c text with
    | some pair =>
      rw [hrest] at h
      obtain ⟨rfl, rfl⟩ := Prod.mk.inj (Option.some.inj h)
      obtain ⟨rfl, hnot⟩ := ih hrest
      exact ⟨rfl, hnot⟩
    | none =>
      rw [hrest] at h
      dsimp only at h
      split at h
      case isTrue heq =>
        obtain ⟨rfl, rfl⟩ := Prod.mk.inj (Option.some.inj h)
        exact ⟨heq ▸ rfl, splitLast_eq_none.1 hrest⟩
      case isFalse => cases h

/-- Two texts that are split at the same unit, that is in neither end. -/
theorem append_last_inj {a b a' b' : Text} (hb : c ∉ b) (hb' : c ∉ b')
    (h : a ++ c :: b = a' ++ c :: b') : a = a' ∧ b = b' := by
  have hsplit := splitLast_append hb a
  rw [h, splitLast_append hb' a'] at hsplit
  exact (Prod.mk.inj (Option.some.inj hsplit)).imp Eq.symm Eq.symm

/-! ## Mounts -/

/-- A path begins with a slash. -/
def IsPath (base : Text) : Prop := base = [] ∨ base.head? = some slash

/-- The segments of the mount. -/
def mountSegments (base : Text) : List Text := (segmentsOf (prefixOf base).tail).dropLast

theorem prefixOf_eq (base : Text) : prefixOf base = trimmed base ++ [slash] := by
  unfold prefixOf trimmed
  split
  case isTrue hlast =>
    obtain ⟨front, rfl⟩ := List.getLast?_eq_some_iff.1 hlast
    rw [List.dropLast_concat]
  case isFalse => rfl

/-- The mount is the root, or it is a path and a slash. -/
theorem prefixOf_cases (h : IsPath base) :
    prefixOf base = [slash] ∨ ∃ front, prefixOf base = slash :: (front ++ [slash]) := by
  have hprefix := prefixOf_eq base
  cases htrimmed : trimmed base with
  | nil =>
    rw [htrimmed] at hprefix
    exact .inl hprefix
  | cons u front =>
    have hhead : u = slash := by
      rcases h with rfl | hhead
      · cases htrimmed
      unfold trimmed at htrimmed
      split at htrimmed
      case isTrue hlast =>
        obtain ⟨init, rfl⟩ := List.getLast?_eq_some_iff.1 hlast
        rw [List.dropLast_concat] at htrimmed
        subst htrimmed
        exact Option.some.inj hhead
      case isFalse =>
        subst htrimmed
        exact Option.some.inj hhead
    subst hhead
    rw [htrimmed] at hprefix
    exact .inr ⟨front, hprefix⟩

/-- The segments behind the first slash are those of the mount and those of what follows. -/
theorem segmentsOf_mount (h : IsPath base) (rest : Text) : ∃ tail, prefixOf base = slash :: tail ∧
      segmentsOf (tail ++ rest) = mountSegments base ++ segmentsOf rest := by
  rcases prefixOf_cases h with hroot | ⟨front, hfront⟩
  · refine ⟨[], hroot, ?_⟩
    rw [mountSegments, hroot]
    rfl
  · refine ⟨front ++ [slash], hfront, ?_⟩
    have hmount : mountSegments base = segmentsOf front := by
      have hnil : segmentsOf (front ++ slash :: []) = segmentsOf front ++ [[]] :=
        segmentsOf_append front []
      rw [mountSegments, hfront, List.tail_cons, hnil, List.dropLast_concat]
    rw [hmount, List.append_assoc]
    exact segmentsOf_append front rest

theorem joinSegments_append {a b : List Text} (ha : a ≠ []) (hb : b ≠ []) :
    joinSegments (a ++ b) = joinSegments a ++ slash :: joinSegments b := by
  induction a with
  | nil => exact absurd rfl ha
  | cons s a ih =>
    by_cases hnil : a = []
    · subst hnil
      rw [List.singleton_append, joinSegments_cons hb, joinSegments_single]
    · rw [List.cons_append, joinSegments_cons (List.append_ne_nil_of_left_ne_nil hnil b), ih hnil,
        joinSegments_cons hnil, List.append_assoc, List.cons_append]

/-- Joined again, the segments of the mount are the mount. -/
theorem joinSegments_mount (h : IsPath base) {tail : List Text} (hne : tail ≠ []) :
    slash :: joinSegments (mountSegments base ++ tail) = prefixOf base ++ joinSegments tail := by
  rcases prefixOf_cases h with hroot | ⟨front, hfront⟩
  · have hmount : mountSegments base = [] := by
      rw [mountSegments, hroot]
      rfl
    rw [hmount, hroot]
    rfl
  · have hmount : mountSegments base = segmentsOf front := by
      have hnil : segmentsOf (front ++ slash :: []) = segmentsOf front ++ [[]] :=
        segmentsOf_append front []
      rw [mountSegments, hfront, List.tail_cons, hnil, List.dropLast_concat]
    rw [hmount, joinSegments_append (segmentsOf_ne_nil front) hne, joinSegments_segmentsOf, hfront]
    simp

/-- No segment of the mount is dots. -/
def Mounted (base : Text) : Prop := ∀ s ∈ mountSegments base, Plain s

/-- What the URL leaves of a path under the mount. -/
theorem pathnameOf_mount (h : IsPath base) (rest : Text) : pathnameOf (prefixOf base ++ rest) =
      slash :: joinSegments (removeDots [] (mountSegments base ++ segmentsOf rest)) := by
  obtain ⟨tail, htail, hsegments⟩ := segmentsOf_mount h rest
  rw [htail, List.cons_append, pathnameOf, if_pos rfl, hsegments]

/-- A mount with dots is not in front of what the URL leaves. -/
theorem not_prefix_of_dots (h : IsPath base) (hdots : ¬ Mounted base) (rest : Text) :
    ¬ prefixOf base <+: pathnameOf (prefixOf base ++ rest) := by
  rintro ⟨left, hleft⟩
  apply hdots
  intro s hs
  rw [pathnameOf_mount h] at hleft
  obtain ⟨tail, htail, hsegments⟩ := segmentsOf_mount h left
  rw [htail, List.cons_append] at hleft
  have hne : removeDots [] (mountSegments base ++ segmentsOf rest) ≠ [] :=
    removeDots_ne_nil (List.append_ne_nil_of_right_ne_nil _ (segmentsOf_ne_nil rest)) []
  have hslash : ∀ s ∈ removeDots [] (mountSegments base ++ segmentsOf rest), slash ∉ s := by
    refine forall_removeDots List.not_mem_nil nofun fun s hs _ _ => ?_
    rcases List.mem_append.1 hs with hs | hs
    · exact slash_notMem_segmentsOf s (List.dropLast_subset _ hs)
    · exact slash_notMem_segmentsOf s hs
  have hsplit := congrArg segmentsOf (List.cons.inj hleft).2
  rw [hsegments, segmentsOf_joinSegments hslash hne] at hsplit
  exact plain_removeDots _ s (hsplit ▸ List.mem_append_left _ hs)

/-! ## The route -/

/-- What the stripper leaves of the segments under the mount. -/
def dropRoute : List Text → List Text
  | s :: t :: u :: rest => if s = actorRouteSegment then u :: rest else s :: t :: u :: rest
  | segments => segments

theorem behindFirst_append {front : Text} (h : c ∉ front) (rest : Text) :
    behindFirst c (front ++ c :: rest) = some rest := by
  induction front with
  | nil => exact if_pos rfl
  | cons u front ih =>
    rw [List.mem_cons, not_or] at h
    rw [List.cons_append, behindFirst, if_neg (fun heq => h.1 heq.symm), ih h.2]

theorem behindFirst_eq_none {text : Text} (h : c ∉ text) : behindFirst c text = none := by
  induction text with
  | nil => rfl
  | cons u text ih =>
    rw [List.mem_cons, not_or] at h
    rw [behindFirst, if_neg (fun heq => h.1 heq.symm), ih h.2]

/-- The marker stands in front of a text whose first segment it is. -/
theorem marker_prefix_iff {s : Text} (h : slash ∉ s) (rest : Text) :
    actorRouteSegment ++ [slash] <+: s ++ slash :: rest ↔ s = actorRouteSegment := by
  constructor
  · rintro ⟨tail, htail⟩
    have hsplit := congrArg (segmentsOf · |>.head?) htail
    have hleft : actorRouteSegment ++ [slash] ++ tail = actorRouteSegment ++ slash :: tail := by
      rfl
    rw [hleft, segmentsOf_append, segmentsOf_append, segmentsOf_single h] at hsplit
    exact (Option.some.inj hsplit).symm
  · rintro rfl
    exact ⟨rest, by rw [List.append_assoc]; rfl⟩

/-- The stripper takes the marker and the token where something stands behind them. -/
theorem stripRoutePath_mount (h : ∀ s ∈ segments, slash ∉ s) (base : Text) :
    stripRoutePath (prefixOf base ++ joinSegments segments) base =
      if dropRoute segments = segments then none
      else some (prefixOf base ++ joinSegments (dropRoute segments)) := by
  have hunder : (prefixOf base).isPrefixOf (prefixOf base ++ joinSegments segments) = true :=
    List.isPrefixOf_iff_prefix.2 (List.prefix_append _ _)
  unfold stripRoutePath
  rw [if_pos hunder, List.drop_left]
  cases segments with
  | nil => rfl
  | cons s segments =>
    rw [List.forall_mem_cons] at h
    cases segments with
    | nil =>
      have hnot : ¬ (actorRouteSegment ++ [slash]).isPrefixOf s = true := by
        rw [List.isPrefixOf_iff_prefix]
        rintro ⟨tail, rfl⟩
        exact h.1 (by simp)
      have hshort : dropRoute [s] = [s] := rfl
      rw [joinSegments_single, if_neg hnot, if_pos hshort]
    | cons t rest =>
      rw [List.forall_mem_cons] at h
      have hmarker := (marker_prefix_iff h.1 (joinSegments (t :: rest)))
      rw [← List.isPrefixOf_iff_prefix] at hmarker
      rw [joinSegments_cons (List.cons_ne_nil _ _)]
      by_cases hs : s = actorRouteSegment
      · rw [if_pos (hmarker.2 hs)]
        subst hs
        have hdrop : (actorRouteSegment ++ slash :: joinSegments (t :: rest)).drop
            (actorRouteSegment ++ [slash]).length = joinSegments (t :: rest) := rfl
        rw [hdrop]
        cases rest with
        | nil =>
          have hshort : dropRoute [actorRouteSegment, t] = [actorRouteSegment, t] := rfl
          rw [joinSegments_single, behindFirst_eq_none h.2.1, if_pos hshort]
          rfl
        | cons u rest =>
          have hne : u :: rest ≠ actorRouteSegment :: t :: u :: rest := by
            intro heq
            have hlength := congrArg List.length heq
            simp at hlength
          rw [joinSegments_cons (List.cons_ne_nil _ _), behindFirst_append h.2.1, dropRoute,
            if_pos rfl, if_neg hne]
          rfl
      · have hkept : dropRoute (s :: t :: rest) = s :: t :: rest := by
          cases rest with
          | nil => rfl
          | cons u rest => exact if_neg hs
        rw [if_neg (fun h => hs (hmarker.1 h)), if_pos hkept]

/-! ## Written segments -/

/-- What is written of a segment, that has no separator. -/
def Written (t s : Text) : Prop := encodeSegment s = some t ∧ slash ∉ s

theorem Written.notMem {t s : Text} (h : Written t s) : slash ∉ t :=
  (segmentPart_of_encodeSegment h.1).slash_notMem

theorem written_route : Written actorRouteSegment actorRouteSegment := by
  have hencode : encodeSegment actorRouteSegment = some actorRouteSegment := by decide
  have hslash : slash ∉ actorRouteSegment := by decide
  exact ⟨hencode, hslash⟩

theorem written_nil : Written [] [] := ⟨rfl, List.not_mem_nil⟩

theorem Written.eq_route_iff {t s : Text} (h : Written t s) :
    t = actorRouteSegment ↔ s = actorRouteSegment := by
  constructor
  · rintro rfl
    exact encodeSegment_inj h.1 written_route.1
  · rintro rfl
    exact Option.some.inj (h.1.symm.trans written_route.1)

open List (Forall₂)

section

variable (h : Forall₂ Written S D)
include h

theorem forall₂_dropRoute : Forall₂ Written (dropRoute S) (dropRoute D) := by
  match S, D, h with
  | [], [], .nil => exact .nil
  | [_], [_], .cons h₁ .nil => exact .cons h₁ .nil
  | [_, _], [_, _], .cons h₁ (.cons h₂ .nil) => exact .cons h₁ (.cons h₂ .nil)
  | s :: _ :: _ :: _, _ :: _ :: _ :: _, .cons h₁ (.cons h₂ (.cons h₃ hrest)) =>
    rw [dropRoute, dropRoute]
    by_cases hroute : s = actorRouteSegment
    · rw [if_pos hroute, if_pos (h₁.eq_route_iff.1 hroute)]
      exact .cons h₃ hrest
    · rw [if_neg hroute, if_neg (fun heq => hroute (h₁.eq_route_iff.2 heq))]
      exact .cons h₁ (.cons h₂ (.cons h₃ hrest))

theorem notMem_of_forall₂ : (∀ s ∈ S, slash ∉ s) ∧ ∀ d ∈ D, slash ∉ d := by
  induction h with
  | nil => exact ⟨nofun, nofun⟩
  | cons h _ ih =>
    rw [List.forall_mem_cons, List.forall_mem_cons]
    exact ⟨⟨h.notMem, ih.1⟩, h.2, ih.2⟩

/-- The stripper leaves what is written as it leaves what was meant. -/
theorem dropRoute_eq_iff_of_forall₂ : dropRoute S = S ↔ dropRoute D = D := by
  have hlonger : ∀ {s t u : Text} {rest : List Text}, u :: rest ≠ s :: t :: u :: rest := by
    intro s t u rest heq
    have hlength := congrArg List.length heq
    simp at hlength
  match S, D, h with
  | [], [], .nil => exact Iff.rfl
  | [_], [_], .cons _ .nil => exact iff_of_true rfl rfl
  | [_, _], [_, _], .cons _ (.cons _ .nil) => exact iff_of_true rfl rfl
  | s :: _ :: _ :: _, _ :: _ :: _ :: _, .cons h₁ (.cons _ (.cons _ _)) =>
    rw [dropRoute, dropRoute]
    by_cases hroute : s = actorRouteSegment
    · rw [if_pos hroute, if_pos (h₁.eq_route_iff.1 hroute)]
      exact iff_of_false hlonger hlonger
    · rw [if_neg hroute, if_neg (fun heq => hroute (h₁.eq_route_iff.2 heq))]
      exact iff_of_true rfl rfl

theorem mapM_decode : S.mapM decodeURIComponent = some D := by
  induction h with
  | nil => rfl
  | cons h _ ih =>
    rw [List.mapM_cons, (segmentPart_of_encodeSegment h.1).decode, ih]
    rfl

/-- The server reads segments that were written. -/
theorem symbolFromPathname_mount (hne : S ≠ []) (base : Text) :
    symbolFromPathname (prefixOf base ++ joinSegments S) base =
      some (canonicalSymbol (joinSegments D)) := by
  have hunder : (prefixOf base).isPrefixOf (prefixOf base ++ joinSegments S) = true :=
    List.isPrefixOf_iff_prefix.2 (List.prefix_append _ _)
  have hany : (D.any fun segment => slash ∈ segment) = false := by
    rw [List.any_eq_false]
    exact fun d hd => by simpa using (notMem_of_forall₂ h).2 d hd
  rw [symbolFromPathname, if_pos hunder, List.drop_left,
    segmentsOf_joinSegments (notMem_of_forall₂ h).1 hne, mapM_decode h, Option.map_some]
  simp only [hany, Bool.false_eq_true, and_false, if_false]

end

/-! ## Paths -/

/-- One dot, and two. -/
def oneDot : Text := [0x2E]

def twoDots : Text := [0x2E, 0x2E]

/-- What the dots of a method leave of the segments. -/
def settledSegments (type : List Text) (method : Text) : List Text :=
  if method = twoDots then type.dropLast ++ [[]]
  else if method = oneDot then type ++ [[]]
  else type ++ [method]

/-- What the route leaves of them. -/
def routedSegments (token : Option Text) (segments : List Text) : List Text :=
  match token with
  | none => dropRoute segments
  | some token =>
      if token = twoDots then dropRoute segments
      else if token = oneDot then dropRoute (actorRouteSegment :: segments)
      else segments

/-- The marker and the token, as they are written. -/
inductive Route : Option Text → List Text → Prop where
  | none : Route none []
  | some {token t : Text} (h : encodeURIComponent token = some t) :
      Route (some token) [actorRouteSegment, t]

theorem mapM_encodeSegment {written : List Text} (hslash : ∀ s ∈ segments, slash ∉ s)
    (h : segments.mapM encodeSegment = some written) : Forall₂ Written written segments := by
  induction segments generalizing written with
  | nil =>
    cases h
    exact .nil
  | cons s segments ih =>
    rw [List.forall_mem_cons] at hslash
    rw [List.mapM_cons] at h
    obtain ⟨t, ht, h⟩ := Option.bind_eq_some_iff.1 h
    obtain ⟨rest, hrest, h⟩ := Option.bind_eq_some_iff.1 h
    cases h
    exact .cons ⟨ht, hslash.1⟩ (ih hslash.2 hrest)

/-- The segments of a path: the mount, the route, the type and the method. -/
theorem segments_of_routePath {type path : Text} (hmethod : hash ∉ method)
    (h : routePath base token (type ++ hash :: method) = some path) :
    ∃ front written m, Route token front ∧ Forall₂ Written written (segmentsOf type) ∧
      Written m method ∧ path = prefixOf base ++ joinSegments (front ++ (written ++ [m])) := by
  obtain ⟨encoded, hencoded, h⟩ := Option.bind_eq_some_iff.1 h
  rw [encodeSymbolPath, splitLast_append hmethod] at hencoded
  dsimp only at hencoded
  split at hencoded
  case isTrue => cases hencoded
  case isFalse hslash =>
    obtain ⟨written, hwritten, hencoded⟩ := Option.bind_eq_some_iff.1 hencoded
    obtain ⟨m, hm, rfl⟩ := Option.map_eq_some_iff.1 hencoded
    have htype := mapM_encodeSegment slash_notMem_segmentsOf hwritten
    have hne : written ≠ [] := by
      rintro rfl
      cases htype' : segmentsOf type with
      | nil => exact segmentsOf_ne_nil type htype'
      | cons s segments =>
        rw [htype'] at htype
        cases htype
    have hjoin : joinSegments (written ++ [m]) = joinSegments written ++ slash :: m := by
      rw [joinSegments_append hne (List.cons_ne_nil _ _), joinSegments_single]
    cases token with
    | none =>
      cases h
      refine ⟨[], written, m, .none, htype, ⟨hm, hslash⟩, ?_⟩
      rw [List.nil_append, hjoin, prefixOf_eq]
      simp
    | some token =>
      obtain ⟨t, ht, rfl⟩ := Option.map_eq_some_iff.1 h
      refine ⟨_, written, m, .some ht, htype, ⟨hm, hslash⟩, ?_⟩
      simp only [List.cons_append, List.nil_append]
      rw [joinSegments_cons (List.cons_ne_nil _ _),
        joinSegments_cons (List.append_ne_nil_of_left_ne_nil hne _), hjoin, prefixOf_eq]
      simp

/-! ## Dots in a path -/

theorem removeDots_two (hne : rest ≠ []) (path : List Text) :
    removeDots path (twoDots :: rest) = removeDots path.dropLast rest := by
  obtain ⟨t, tail, rfl⟩ := List.exists_cons_of_ne_nil hne
  exact if_pos (by decide)

theorem removeDots_one (hne : rest ≠ []) (path : List Text) :
    removeDots path (oneDot :: rest) = removeDots path rest := by
  obtain ⟨t, tail, rfl⟩ := List.exists_cons_of_ne_nil hne
  have hdouble : oneDot ∉ doubleDots := by decide
  have hsingle : oneDot ∈ singleDots := by decide
  rw [removeDots, if_neg hdouble, if_pos hsingle]

/-- No segment is dots. -/
def Undotted (segments : List Text) : Prop := ∀ s ∈ segments, s ≠ oneDot ∧ s ≠ twoDots

theorem plain_of_forall₂ (h : Forall₂ Written S D) (hD : Undotted D) : ∀ s ∈ S, Plain s := by
  induction h with
  | nil => nofun
  | cons h _ ih =>
    rw [Undotted, List.forall_mem_cons] at hD
    rw [List.forall_mem_cons]
    exact ⟨(segmentPart_of_encodeSegment h.1).plain hD.1.1 hD.1.2, ih hD.2⟩

/-- What is left where a type and a method were written. -/
theorem removeDots_written {written type : List Text} {m : Text}
    (htype : Forall₂ Written written type) (hdots : Undotted type) (hne : type ≠ [])
    (hm : Written m method) (path : List Text) :
    ∃ left, removeDots path (written ++ [m]) = path ++ left ∧ left ≠ [] ∧
      Forall₂ Written left (settledSegments type method) := by
  have hplain := plain_of_forall₂ htype hdots
  have hwritten : written ≠ [] := by
    rintro rfl
    cases htype
    exact hne rfl
  have hnil : Forall₂ Written [([] : Text)] [[]] := .cons written_nil .nil
  rw [removeDots_plain hplain (List.cons_ne_nil _ _)]
  by_cases htwo : method = twoDots
  · subst htwo
    have hencode : encodeSegment twoDots = some twoDots := by decide
    obtain rfl : m = twoDots := Option.some.inj (hm.1.symm.trans hencode)
    refine ⟨written.dropLast ++ [[]], ?_, List.concat_ne_nil _ _, ?_⟩
    · have hdouble : twoDots ∈ doubleDots := by decide
      rw [removeDots, if_pos hdouble, List.dropLast_append_of_ne_nil hwritten, List.append_assoc]
    · rw [settledSegments, if_pos rfl, List.dropLast_eq_take, List.dropLast_eq_take,
        htype.length_eq]
      exact List.rel_append (List.forall₂_take _ htype) hnil
  by_cases hone : method = oneDot
  · subst hone
    have hencode : encodeSegment oneDot = some oneDot := by decide
    obtain rfl : m = oneDot := Option.some.inj (hm.1.symm.trans hencode)
    refine ⟨written ++ [[]], ?_, List.concat_ne_nil _ _, ?_⟩
    · have hdouble : oneDot ∉ doubleDots := by decide
      have hsingle : oneDot ∈ singleDots := by decide
      rw [removeDots, if_neg hdouble, if_pos hsingle, List.append_assoc]
    · exact List.rel_append htype hnil
  · refine ⟨written ++ [m], ?_, List.concat_ne_nil _ _, ?_⟩
    · rw [removeDots_last ((segmentPart_of_encodeSegment hm.1).plain hone htwo), List.append_assoc]
    · rw [settledSegments, if_neg htwo, if_neg hone]
      exact List.rel_append htype (.cons hm .nil)

/-! ## What is read -/

theorem dropRoute_ne_nil (h : segments ≠ []) : dropRoute segments ≠ [] := by
  match segments, h with
  | [_], _ => exact List.cons_ne_nil _ _
  | [_, _], _ => exact List.cons_ne_nil _ _
  | s :: _ :: _ :: _, _ =>
    rw [dropRoute]
    split <;> exact List.cons_ne_nil _ _

/-- A token is dots where what is written of it is. -/
theorem removeDots_route {front : List Text} (h : Route token front) (hne : rest ≠ [])
    (path : List Text) : ∃ kept, removeDots path (front ++ rest) = removeDots (path ++ kept) rest ∧
      (∀ s ∈ kept, slash ∉ s) ∧ (token = none → kept = []) ∧
      ∀ left D, Forall₂ Written left D → left ≠ [] →
        Forall₂ Written (dropRoute (kept ++ left)) (routedSegments token D) := by
  have hroute : Plain actorRouteSegment := by decide
  cases h with
  | none =>
    refine ⟨[], by rw [List.append_nil]; rfl, nofun, fun _ => rfl, fun left D hleft _ => ?_⟩
    exact forall₂_dropRoute hleft
  | @some token t ht =>
    have hpart := (segmentPart_of_encodeURIComponent ht).1
    have hmarker : ∀ tail, tail ≠ [] →
        removeDots path (actorRouteSegment :: tail) =
          removeDots (path ++ [actorRouteSegment]) tail := fun tail htail =>
      removeDots_plain (List.forall_mem_singleton.2 hroute) htail path
    by_cases htwo : token = twoDots
    · subst htwo
      have hencode : encodeURIComponent twoDots = some twoDots := by decide
      obtain rfl : t = twoDots := Option.some.inj (ht.symm.trans hencode)
      refine ⟨[], ?_, nofun, nofun, fun left D hleft _ => ?_⟩
      · rw [List.cons_append, List.cons_append, List.nil_append,
          hmarker _ (List.cons_ne_nil _ _), removeDots_two hne, List.dropLast_concat,
          List.append_nil]
      · exact forall₂_dropRoute hleft
    by_cases hone : token = oneDot
    · subst hone
      have hencode : encodeURIComponent oneDot = some oneDot := by decide
      obtain rfl : t = oneDot := Option.some.inj (ht.symm.trans hencode)
      refine ⟨[actorRouteSegment], ?_, ?_, nofun, fun left D hleft _ => ?_⟩
      · rw [List.cons_append, List.cons_append, List.nil_append,
          hmarker _ (List.cons_ne_nil _ _), removeDots_one hne]
      · exact List.forall_mem_singleton.2 written_route.2
      · exact forall₂_dropRoute (.cons written_route hleft)
    · refine ⟨[actorRouteSegment, t], ?_, ?_, nofun, fun left D hleft hleft' => ?_⟩
      · refine removeDots_plain ?_ hne path
        exact List.forall_mem_cons.2 ⟨hroute, List.forall_mem_cons.2 ⟨hpart.plain hone htwo, nofun⟩⟩
      · exact List.forall_mem_cons.2
          ⟨written_route.2, List.forall_mem_cons.2 ⟨hpart.slash_notMem, nofun⟩⟩
      · obtain ⟨u, others, rfl⟩ := List.exists_cons_of_ne_nil hleft'
        rw [routedSegments, if_neg htwo, if_neg hone, List.cons_append, List.cons_append,
          List.nil_append, dropRoute, if_pos rfl]
        exact hleft

/-- What the URL leaves of a path that the client wrote. -/
theorem pathname_routePath {type path : Text} (hbase : IsPath base) (hmounted : Mounted base)
    (hdots : Undotted (segmentsOf type)) (hmethod : hash ∉ method)
    (h : routePath base token (type ++ hash :: method) = some path) :
    ∃ kept left, pathnameOf path = prefixOf base ++ joinSegments (kept ++ left) ∧
      (∀ s ∈ kept ++ left, slash ∉ s) ∧ kept ++ left ≠ [] ∧ (token = none → kept = []) ∧
      Forall₂ Written left (settledSegments (segmentsOf type) method) ∧
      Forall₂ Written (dropRoute (kept ++ left))
        (routedSegments token (settledSegments (segmentsOf type) method)) := by
  obtain ⟨front, written, m, hroute, htype, hm, rfl⟩ := segments_of_routePath hmethod h
  have hrest : written ++ [m] ≠ [] := List.concat_ne_nil _ _
  have hslash : ∀ s ∈ front ++ (written ++ [m]), slash ∉ s := by
    intro s hs
    rcases List.mem_append.1 hs with hs | hs
    · cases hroute with
      | none => cases hs
      | some ht =>
        have hpart := (segmentPart_of_encodeURIComponent ht).1
        rcases List.mem_cons.1 hs with rfl | hs
        · exact written_route.2
        · exact List.mem_singleton.1 hs ▸ hpart.slash_notMem
    · rcases List.mem_append.1 hs with hs | hs
      · exact (notMem_of_forall₂ htype).1 s hs
      · exact List.mem_singleton.1 hs ▸ hm.notMem
  obtain ⟨kept, hkept, hkeptSlash, hnone, hdrop⟩ :=
    removeDots_route hroute hrest (mountSegments base)
  obtain ⟨left, hleft, hleftNe, hwritten⟩ :=
    removeDots_written htype hdots (segmentsOf_ne_nil type) hm (mountSegments base ++ kept)
  have hkeptNe : kept ++ left ≠ [] := List.append_ne_nil_of_right_ne_nil _ hleftNe
  refine ⟨kept, left, ?_, fun s hs => ?_, hkeptNe, hnone, hwritten, hdrop left _ hwritten hleftNe⟩
  · rw [pathnameOf_mount hbase, segmentsOf_joinSegments hslash
      (List.append_ne_nil_of_right_ne_nil _ hrest), removeDots_plain hmounted
      (List.append_ne_nil_of_right_ne_nil _ hrest), List.nil_append, hkept, hleft,
      List.append_assoc, joinSegments_mount hbase hkeptNe]
  · exact (List.mem_append.1 hs).elim (hkeptSlash s) ((notMem_of_forall₂ hwritten).1 s)

/-- What the server reads of a path that the client wrote. -/
theorem receivedSymbol_routePath {type path : Text} (hbase : IsPath base) (hmounted : Mounted base)
    (hdots : Undotted (segmentsOf type)) (hmethod : hash ∉ method)
    (h : routePath base token (type ++ hash :: method) = some path) :
    receivedSymbol base path = some (canonicalSymbol (joinSegments
      (routedSegments token (settledSegments (segmentsOf type) method)))) := by
  obtain ⟨kept, left, hpathname, hslash, hne, -, -, hrouted⟩ :=
    pathname_routePath hbase hmounted hdots hmethod h
  have hstripped : (stripRoutePath (prefixOf base ++ joinSegments (kept ++ left)) base).getD
      (prefixOf base ++ joinSegments (kept ++ left)) =
        prefixOf base ++ joinSegments (dropRoute (kept ++ left)) := by
    rw [stripRoutePath_mount hslash]
    split
    case isTrue heq => rw [heq]; rfl
    case isFalse => rfl
  rw [receivedSymbol, hpathname, hstripped,
    symbolFromPathname_mount hrouted (dropRoute_ne_nil hne)]

end SigxActors.Codec
