/-
  Js/UrlPath.lean --- paths and their dot segments.

  A URL's path is parsed segment by segment, as the URL Standard has it: one dot is
  dropped, and two take the segment in front of them along.  The last segment leaves an
  empty one behind.

  The module names nothing of the runtime.
-/
import SigxActors.Js.Text

set_option autoImplicit false

namespace SigxActors.Js

/-- `/`. -/
def slash : UInt16 := 0x2F

/-- `text.split('/')`. -/
def segmentsOf (text : Text) : List Text := text.splitOn slash

/-- `segments.join('/')`. -/
def joinSegments (segments : List Text) : Text := [slash].intercalate segments

/-- `.`, spelled out or as its number. -/
def singleDots : List Text := [[0x2E], [0x25, 0x32, 0x65], [0x25, 0x32, 0x45]]

/-- Two of them. -/
def doubleDots : List Text := singleDots.flatMap fun a => singleDots.map (a ++ ·)

/-- The path state of the URL parser: `path` is what there is so far. -/
def removeDots (path : List Text) : List Text → List Text
  | [] => path
  | [s] =>
      if s ∈ doubleDots then path.dropLast ++ [[]]
      else if s ∈ singleDots then path ++ [[]]
      else path ++ [s]
  | s :: t :: rest =>
      if s ∈ doubleDots then removeDots path.dropLast (t :: rest)
      else if s ∈ singleDots then removeDots path (t :: rest)
      else removeDots (path ++ [s]) (t :: rest)

/-- `url.pathname` of a URL with this path. -/
def pathnameOf : Text → Text
  | [] => [slash]
  | u :: rest =>
      if u = slash then slash :: joinSegments (removeDots [] (segmentsOf rest)) else u :: rest

/-! ## Segments -/

theorem segmentsOf_append (a b : Text) :
    segmentsOf (a ++ slash :: b) = segmentsOf a ++ segmentsOf b :=
  List.splitOn_append_cons_self a b

theorem segmentsOf_single {s : Text} (h : slash ∉ s) : segmentsOf s = [s] :=
  List.splitOn_eq_singleton h

theorem segmentsOf_ne_nil (text : Text) : segmentsOf text ≠ [] := List.splitOn_ne_nil slash text

theorem joinSegments_segmentsOf (text : Text) : joinSegments (segmentsOf text) = text :=
  List.intercalate_splitOn slash

theorem segmentsOf_joinSegments {segments : List Text} (h : ∀ s ∈ segments, slash ∉ s)
    (hne : segments ≠ []) : segmentsOf (joinSegments segments) = segments :=
  List.splitOn_intercalate slash h hne

theorem joinSegments_cons {segments : List Text} (hne : segments ≠ []) (s : Text) :
    joinSegments (s :: segments) = s ++ slash :: joinSegments segments := by
  cases segments with
  | nil => exact absurd rfl hne
  | cons t segments =>
    rfl

theorem joinSegments_single (s : Text) : joinSegments [s] = s := List.intercalate_singleton

/-- A segment has no separator. -/
theorem slash_notMem_segmentsOf {text : Text} : ∀ s ∈ segmentsOf text, slash ∉ s := by
  induction text with
  | nil =>
    intro s hs
    obtain rfl := List.mem_singleton.1 hs
    exact List.not_mem_nil
  | cons u text ih =>
    intro s hs
    rw [segmentsOf, List.splitOn_cons_eq_if_modifyHead] at hs
    split at hs
    case isTrue =>
      rcases List.mem_cons.1 hs with rfl | hs
      · exact List.not_mem_nil
      · exact ih s hs
    case isFalse hne =>
      have hsegments : text.splitOn slash = segmentsOf text := rfl
      rw [hsegments] at hs
      cases hsplit : segmentsOf text with
      | nil => exact absurd hsplit (segmentsOf_ne_nil text)
      | cons first others =>
        rw [hsplit] at hs ih
        rcases List.mem_cons.1 hs with rfl | hs
        · intro hin
          rcases List.mem_cons.1 hin with rfl | hin
          · exact hne (beq_self_eq_true _)
          · exact ih first (.head _) hin
        · exact ih s (.tail _ hs)

/-! ## Dots -/

/-- It is neither one dot nor two. -/
def Plain (s : Text) : Prop := s ∉ doubleDots ∧ s ∉ singleDots

instance (s : Text) : Decidable (Plain s) := inferInstanceAs (Decidable (_ ∧ _))

/-- Plain segments are kept. -/
theorem removeDots_plain {ss rest : List Text} (h : ∀ s ∈ ss, Plain s) (hne : rest ≠ [])
    (path : List Text) : removeDots path (ss ++ rest) = removeDots (path ++ ss) rest := by
  induction ss generalizing path with
  | nil => rw [List.nil_append, List.append_nil]
  | cons s ss ih =>
    rw [List.forall_mem_cons] at h
    have hcons : ∃ t tail, ss ++ rest = t :: tail :=
      List.exists_cons_of_ne_nil (List.append_ne_nil_of_right_ne_nil ss hne)
    obtain ⟨t, tail, htail⟩ := hcons
    rw [List.cons_append, htail, removeDots, if_neg h.1.1, if_neg h.1.2, ← htail, ih h.2,
      List.append_assoc, List.singleton_append]

theorem removeDots_last {s : Text} (h : Plain s) (path : List Text) :
    removeDots path [s] = path ++ [s] := by
  rw [removeDots, if_neg h.1, if_neg h.2]

/-- What is true of every segment is true of those that are left. -/
theorem forall_removeDots {P : Text → Prop} {path ss : List Text} (hnil : P [])
    (hpath : ∀ s ∈ path, P s) (hss : ∀ s ∈ ss, s ∉ doubleDots → s ∉ singleDots → P s) :
    ∀ s ∈ removeDots path ss, P s := by
  have hsnoc : ∀ {path : List Text} {s : Text}, (∀ s ∈ path, P s) → P s →
      ∀ t ∈ path ++ [s], P t := by
    intro path s hpath hs t ht
    rcases List.mem_append.1 ht with ht | ht
    · exact hpath t ht
    · exact List.mem_singleton.1 ht ▸ hs
  have hdrop : ∀ {path : List Text}, (∀ s ∈ path, P s) → ∀ s ∈ path.dropLast, P s :=
    fun hpath s hs => hpath s (List.dropLast_subset _ hs)
  fun_induction removeDots path ss with
  | case1 => exact hpath
  | case2 => exact hsnoc (hdrop hpath) hnil
  | case3 => exact hsnoc hpath hnil
  | case4 path s hdouble hsingle => exact hsnoc hpath (hss s (.head _) hdouble hsingle)
  | case5 _ _ _ _ _ ih => exact ih (hdrop hpath) fun s hs => hss s (.tail _ hs)
  | case6 _ _ _ _ _ _ ih => exact ih hpath fun s hs => hss s (.tail _ hs)
  | case7 _ s _ _ hdouble hsingle ih =>
    exact ih (hsnoc hpath (hss s (.head _) hdouble hsingle)) fun s hs => hss s (.tail _ hs)

/-- No dots are left. -/
theorem plain_removeDots (ss : List Text) : ∀ s ∈ removeDots [] ss, Plain s :=
  forall_removeDots (by decide) nofun fun _ _ hdouble hsingle => ⟨hdouble, hsingle⟩

theorem removeDots_ne_nil {ss : List Text} (hne : ss ≠ []) (path : List Text) :
    removeDots path ss ≠ [] := by
  fun_induction removeDots path ss with
  | case1 => exact absurd rfl hne
  | case2 | case3 | case4 => exact List.concat_ne_nil _ _
  | case5 _ _ _ _ _ ih => exact ih (List.cons_ne_nil _ _)
  | case6 _ _ _ _ _ _ ih => exact ih (List.cons_ne_nil _ _)
  | case7 _ _ _ _ _ _ ih => exact ih (List.cons_ne_nil _ _)

end SigxActors.Js
