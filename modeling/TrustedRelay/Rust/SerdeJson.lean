import TrustedRelay.Format.JsonText

/-!
# serde_json

The library reads a JSON text from bytes and keeps a map for each object, in which a later member
replaces an earlier one of the same name. It refuses containers that are nested too deep, and
numbers that do not fit into its number type; which numbers fit is a parameter.
-/

namespace TrustedRelay

namespace SerdeJson

open Json

/-- Containers are nested less deep than this. -/
def recursionLimit : ℕ := 128

/-- A text that is read as a value. -/
def fromStr (fits : Text → Bool) (s : Text) : Option Value :=
  (parseText s).filter fun v => decide (depth v < recursionLimit) && (numbers v).all fits

/-- `serde_json::from_slice`. -/
def fromSlice (fits : Text → Bool) (b : Bytes) : Option Value :=
  (Text.fromUtf8 b).bind (fromStr fits)

/-- `serde_json::to_vec`. -/
def toVec (v : Value) : Bytes := Text.asBytes (render v)

/-- `Value::get`: the last member of the name. -/
def get (name : Text) : Value → Option Value
  | .object ms => ms.reverse.lookup name
  | _ => none

section

variable {fits : Text → Bool} {v : Value}

/-- What is written is read back, unless it is nested too deep. -/
theorem fromSlice_toVec (hv : HasNumbers v) (hfits : ∀ t ∈ numbers v, fits t = true) :
    fromSlice fits (toVec v) = if depth v < recursionLimit then some v else none := by
  have hall : (numbers v).all fits = true := List.all_eq_true.mpr hfits
  rw [fromSlice, toVec, Text.fromUtf8_asBytes, Option.bind_some, fromStr, parseText_render hv,
    Option.filter_some, hall, Bool.and_true]
  simp only [decide_eq_true_eq]

/-- A name that has one value is found by either order. -/
theorem lookup_eq_some_of_unique {V : Type} {l : List (Text × V)} {k : Text} {x : V}
    (hmem : (k, x) ∈ l) (hunique : ∀ y, (k, y) ∈ l → y = x) : l.lookup k = some x := by
  induction l with
  | nil => cases hmem
  | cons e l ih =>
    obtain ⟨k', y⟩ := e
    by_cases hk : k = k'
    · subst hk
      rw [List.lookup_cons_self, hunique y List.mem_cons_self]
    · have hbeq : (k == k') = false := beq_eq_false_iff_ne.mpr hk
      rw [List.lookup_cons, hbeq]
      rcases List.mem_cons.mp hmem with heq | hmem
      · exact absurd (Prod.mk.inj heq).1 hk
      · exact ih hmem fun y hy => hunique y (List.mem_cons_of_mem _ hy)

theorem lookup_eq_none_of_not_mem {V : Type} {l : List (Text × V)} {k : Text}
    (h : ∀ x, (k, x) ∉ l) : l.lookup k = none := by
  rw [List.lookup_eq_none_iff]
  rintro ⟨k', x⟩ hmem
  by_contra hk
  have heq : k = k' := by simpa using hk
  exact h x (heq ▸ hmem)

/-- The entries of a map, searched from the end. -/
theorem lookup_reverse_toList {V : Type} (m : BTreeMap V) (k : Text) :
    m.toList.reverse.lookup k = m[k]? := by
  have hmem : ∀ x, (k, x) ∈ m.toList.reverse ↔ m[k]? = some x := fun x => by
    rw [List.mem_reverse, Std.ExtTreeMap.mem_toList_iff_getElem?_eq_some]
  cases h : m[k]? with
  | none => exact lookup_eq_none_of_not_mem fun x hx => by simp [(hmem x).mp hx] at h
  | some x =>
    refine lookup_eq_some_of_unique ((hmem x).mpr h) fun y hy => ?_
    exact Option.some.inj (((hmem y).mp hy).symm.trans h)

end

end SerdeJson

end TrustedRelay
