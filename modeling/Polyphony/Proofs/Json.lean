import Mathlib.Data.List.Forall2
import Polyphony.Json

/-! The fields of an object have no order, so two trees may stand for one value. What is read from a
tree by the names of its fields is the same for both. -/
namespace Polyphony.Json

@[simp] theorem int?_int (n : Int) : int? (.int n) = some n := rfl

@[simp] theorem string?_string (text : String) : string? (.string text) = some text := rfl

@[simp] theorem array?_array (items : List Json) : array? (.array items) = some items := rfl

@[simp] theorem field?_nil (name : String) : field? name (.object []) = none := rfl

@[simp] theorem field?_cons_self (name : String) (value : Json) (fields : List (String × Json)) :
    field? name (.object ((name, value) :: fields)) = some value := by
  rw [field?, List.lookup_cons_self]

@[simp] theorem field?_cons_of_ne {name key : String} (ne : name ≠ key) (value : Json)
    (fields : List (String × Json)) :
    field? name (.object ((key, value) :: fields)) = field? name (.object fields) := by
  rw [field?, field?, List.lookup_cons, beq_false_of_ne ne]

/-- Two trees for one value: objects are compared name by name. -/
inductive Same : Json → Json → Prop
  | null : Same .null .null
  | bool (value : Bool) : Same (.bool value) (.bool value)
  | int (value : Int) : Same (.int value) (.int value)
  | number (value : Binary64) : Same (.number value) (.number value)
  | string (value : String) : Same (.string value) (.string value)
  | array {items others : List Json} :
      List.Forall₂ Same items others → Same (.array items) (.array others)
  | object {fields others : List (String × Json)} :
      (∀ name, Option.Rel Same (fields.lookup name) (others.lookup name)) →
      Same (.object fields) (.object others)

variable {tree other : Json} {α : Type}

theorem sizeOf_lookup_lt {fields : List (String × Json)} {name : String} {value : Json}
    (found : fields.lookup name = some value) : sizeOf value < sizeOf fields := by
  obtain ⟨before, after, split, _⟩ := List.lookup_eq_some_iff.mp found
  have member : (name, value) ∈ fields := by
    rw [split]
    exact List.mem_append_right before List.mem_cons_self
  have size := List.sizeOf_lt_of_mem member
  rw [Prod.mk.sizeOf_spec] at size
  omega

theorem Same.refl : (tree : Json) → tree.Same tree
  | .null => .null
  | .bool value => .bool value
  | .int value => .int value
  | .number value => .number value
  | .string value => .string value
  | .array items => .array (List.forall₂_same.mpr fun item _ => Same.refl item)
  | .object fields => .object fun name => by
      cases found : fields.lookup name with
      | none => exact .none
      | some value => exact .some (Same.refl value)
termination_by tree => sizeOf tree
decreasing_by
  · have size := List.sizeOf_lt_of_mem ‹_›
    simp only [Json.array.sizeOf_spec]
    omega
  · have size := sizeOf_lookup_lt found
    simp only [Json.object.sizeOf_spec]
    omega

theorem Same.int?_eq (same : tree.Same other) : tree.int? = other.int? := by
  cases same <;> rfl

theorem Same.string?_eq (same : tree.Same other) : tree.string? = other.string? := by
  cases same <;> rfl

theorem Same.field? (same : tree.Same other) (name : String) :
    Option.Rel Same (tree.field? name) (other.field? name) := by
  cases same with
  | object same => exact same name
  | _ => exact .none

theorem Same.bind_field? {f g : Json → Option α} (same : tree.Same other) (name : String)
    (each : ∀ value value', value.Same value' → f value = g value') :
    (tree.field? name >>= f) = other.field? name >>= g := by
  have fields := same.field? name
  generalize tree.field? name = first at fields ⊢
  generalize other.field? name = second at fields ⊢
  cases fields with
  | none => rfl
  | some related => exact each _ _ related

theorem Same.named_eq (same : tree.Same other) (name : String) (make : String → α) :
    (do return make (← (← tree.field? name).string?) : Option α) =
      do return make (← (← other.field? name).string?) :=
  same.bind_field? name fun value value' text => by rw [text.string?_eq]

theorem mapM_congr_of_same {f : Json → Option α} {items others : List Json}
    (each : ∀ item item', item.Same item' → f item = f item')
    (same : List.Forall₂ Same items others) : items.mapM f = others.mapM f := by
  induction same with
  | nil => rfl
  | cons first _ ih => rw [List.mapM_cons, List.mapM_cons, each _ _ first, ih]

theorem Same.bind_array? {f : Json → Option α} (same : tree.Same other)
    (each : ∀ item item', item.Same item' → f item = f item') :
    (tree.array? >>= fun items => items.mapM f) = other.array? >>= fun items => items.mapM f := by
  cases same with
  | array same => exact mapM_congr_of_same each same
  | _ => rfl

end Polyphony.Json
