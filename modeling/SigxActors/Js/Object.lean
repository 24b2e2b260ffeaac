/-
  Js/Object.lean --- what plain objects inherit.

  The runtime keeps some tables in object literals, which answer for the names of
  `Object.prototype` as well as for their own keys.

  The module names nothing of the runtime.
-/
import SigxActors.Js.Map

set_option autoImplicit false

namespace SigxActors.Js

/-- The names that `Object.prototype` has. -/
def objectPrototype : List String :=
  ["constructor", "__defineGetter__", "__defineSetter__", "hasOwnProperty", "__lookupGetter__",
    "__lookupSetter__", "isPrototypeOf", "propertyIsEnumerable", "toString", "valueOf",
    "__proto__", "toLocaleString"]

/-- `name in object`, for the own keys of an object literal. -/
def JsMap.inObject {β : Type} (own : JsMap String β) (name : String) : Bool :=
  own.has name || decide (name ∈ objectPrototype)

/-- `object[name] = value`: a value under `__proto__` is no own key, and is not stored with
the object. -/
def JsMap.assign {β : Type} (own : JsMap String β) (name : String) (value : β) : JsMap String β :=
  if name = "__proto__" then own else own.set name value

variable {name : String}

theorem JsMap.get_assign {β : Type} (own : JsMap String β) (value : β) (h : name ≠ "__proto__")
    (other : String) :
    (own.assign name value).get other = if other = name then some value else own.get other := by
  rw [JsMap.assign, if_neg h, JsMap.get_set]

theorem JsMap.get_assign_of_ne {β : Type} (own : JsMap String β) {other : String} (value : β)
    (h : other ≠ name) : (own.assign name value).get other = own.get other := by
  rw [JsMap.assign]
  split
  · rfl
  · rw [JsMap.get_set, if_neg h]

/-- A name that no prototype has is in the object as an own key, or not at all. -/
theorem JsMap.inObject_eq_has {β : Type} (own : JsMap String β) (h : name ∉ objectPrototype) :
    own.inObject name = own.has name := by
  simp [JsMap.inObject, h]

end SigxActors.Js
