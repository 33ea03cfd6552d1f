import Metronome.Value.Depth

namespace Metronome

/-- A step from a value to one of its parts: an item of a list, or a field of an object. -/
inductive PathStep where
  | item (index : Nat)
  | field (name : String)

/-- What a value shows by itself: the value of a scalar, how many items a list has, and the names of
an object's fields in their order. -/
inductive Outline where
  | scalar (value : Value)
  | list (length : Nat)
  | object (names : List String)

namespace Value

def outline : Value → Outline
  | list items => .list items.length
  | object fields => .object (fields.map (·.1))
  | scalar => .scalar scalar

def part? (value : Value) : PathStep → Option Value
  | .item index => value.list?.bind (·[index]?)
  | .field name => value.field? name

def at? (value : Value) : List PathStep → Option Value
  | [] => some value
  | step :: path => (value.part? step).bind (·.at? path)

variable {value : Value} {limit : Nat}

theorem depthItems_le {items : List Value} :
    depthItems items ≤ limit ↔ ∀ item ∈ items, item.depth ≤ limit := by
  induction items with
  | nil => simp [depthItems]
  | cons item items ih => rw [depthItems, Nat.max_le, ih, List.forall_mem_cons]

theorem depthFields_le {fields : List (String × Value)} :
    depthFields fields ≤ limit ↔ ∀ field ∈ fields, field.2.depth ≤ limit := by
  induction fields with
  | nil => simp [depthFields]
  | cons field fields ih => rw [depthFields, Nat.max_le, ih, List.forall_mem_cons]

@[simp] theorem depth_list (items : List Value) :
    (list items).depth = depthItems items + 1 := by
  rw [depth]

@[simp] theorem depth_object (fields : List (String × Value)) :
    (object fields).depth = depthFields fields + 1 := by
  rw [depth]

/-- Induction over a value from its scalars up: what is true of all parts of a list or an object is
true of the list or object. -/
@[elab_as_elim]
theorem nested {motive : Value → Prop} (scalar : ∀ value, value.depth = 0 → motive value)
    (list : ∀ items, (∀ item ∈ items, motive item) → motive (.list items))
    (object : ∀ fields, (∀ field ∈ fields, motive field.2) → motive (.object fields)) :
    ∀ value, motive value
  | .null => scalar _ (by rw [depth])
  | .bool _ => scalar _ (by rw [depth])
  | .number _ => scalar _ (by rw [depth])
  | .text _ => scalar _ (by rw [depth])
  | .list items => list items fun item member =>
    have smaller := List.sizeOf_lt_of_mem member
    nested scalar list object item
  | .object fields => object fields fun (name, value) member =>
    have smaller := List.sizeOf_lt_of_mem member
    nested scalar list object value
decreasing_by
  all_goals
    simp only [Value.list.sizeOf_spec, Value.object.sizeOf_spec, Prod.mk.sizeOf_spec] at *
    omega

theorem truncateItems_eq (items : List Value) :
    truncateItems limit items = items.map (truncate limit) := by
  induction items with
  | nil => rw [truncateItems, List.map_nil]
  | cons item items ih => rw [truncateItems, ih, List.map_cons]

theorem truncateFields_eq (fields : List (String × Value)) :
    truncateFields limit fields = fields.map fun field => (field.1, truncate limit field.2) := by
  induction fields with
  | nil => rw [truncateFields, List.map_nil]
  | cons field fields ih => rw [truncateFields, ih, List.map_cons]

@[simp] theorem truncate_list (items : List Value) :
    truncate (limit + 1) (list items) = list (items.map (truncate limit)) := by
  rw [truncate, truncateItems_eq]

@[simp] theorem truncate_object (fields : List (String × Value)) :
    truncate (limit + 1) (object fields) =
      object (fields.map fun field => (field.1, truncate limit field.2)) := by
  rw [truncate, truncateFields_eq]

theorem truncate_scalar (scalar : value.depth = 0) : truncate limit value = value := by
  cases value with
  | list | object => simp at scalar
  | _ => rw [truncate] <;> nofun

@[simp] theorem truncate_null : truncate limit null = null :=
  truncate_scalar (by rw [depth])

theorem truncate_zero (value : Value) :
    truncate 0 value = if value.depth = 0 then value else null := by
  split
  · rename_i scalar
    exact truncate_scalar scalar
  · rename_i nests
    cases value with
    | list | object => rw [truncate]
    | _ => exact absurd (by rw [depth]) nests

theorem depth_truncate (limit : Nat) (value : Value) : (truncate limit value).depth ≤ limit := by
  induction value using nested generalizing limit with
  | scalar value scalar =>
    rw [truncate_scalar scalar, scalar]
    exact Nat.zero_le _
  | list items ih =>
    cases limit with
    | zero => simp [truncate_zero, depth]
    | succ limit =>
      rw [truncate_list, depth_list, Nat.succ_le_succ_iff, depthItems_le, List.forall_mem_map]
      exact fun item member => ih item member limit
  | object fields ih =>
    cases limit with
    | zero => simp [truncate_zero, depth]
    | succ limit =>
      rw [truncate_object, depth_object, Nat.succ_le_succ_iff, depthFields_le,
        List.forall_mem_map]
      exact fun field member => ih field member limit

theorem truncate_of_depth_le (shallow : value.depth ≤ limit) : truncate limit value = value := by
  induction value using nested generalizing limit with
  | scalar value scalar => exact truncate_scalar scalar
  | list items ih =>
    cases limit with
    | zero => simp at shallow
    | succ limit =>
      rw [depth_list, Nat.succ_le_succ_iff, depthItems_le] at shallow
      rw [truncate_list, list.injEq]
      exact (List.map_congr_left fun item member => ih item member (shallow item member)).trans
        (List.map_id' items)
  | object fields ih =>
    cases limit with
    | zero => simp at shallow
    | succ limit =>
      rw [depth_object, Nat.succ_le_succ_iff, depthFields_le] at shallow
      have kept : ∀ field ∈ fields, (field.1, truncate limit field.2) = field :=
        fun field member => Prod.ext rfl (ih field member (shallow field member))
      rw [truncate_object, object.injEq]
      exact (List.map_congr_left kept).trans (List.map_id' fields)

theorem truncate_eq_self : truncate limit value = value ↔ value.depth ≤ limit := by
  constructor
  · intro same
    rw [← same]
    exact depth_truncate limit value
  · exact truncate_of_depth_le

theorem truncate_truncate (first second : Nat) (value : Value) :
    truncate second (truncate first value) = truncate (min first second) value := by
  induction value using nested generalizing first second with
  | scalar value scalar => rw [truncate_scalar scalar, truncate_scalar scalar, truncate_scalar scalar]
  | list items ih =>
    cases first with
    | zero => simp [truncate_zero]
    | succ first =>
      cases second with
      | zero => simp [truncate_zero]
      | succ second =>
        rw [Nat.succ_min_succ]
        simp only [truncate_list, List.map_map, list.injEq, List.map_inj_left]
        exact fun item member => ih item member first second
  | object fields ih =>
    cases first with
    | zero => simp [truncate_zero]
    | succ first =>
      cases second with
      | zero => simp [truncate_zero]
      | succ second =>
        rw [Nat.succ_min_succ]
        simp only [truncate_object, List.map_map, object.injEq, List.map_inj_left]
        exact fun field member => Prod.ext rfl (ih field member first second)

theorem outline_truncate (limit : Nat) (value : Value) :
    (truncate (limit + 1) value).outline = value.outline := by
  cases value with
  | list items => simp [outline]
  | object fields => simp [outline]
  | _ => rw [truncate_scalar (by rw [depth])]

theorem part?_truncate (limit : Nat) (value : Value) (step : PathStep) :
    (truncate (limit + 1) value).part? step = (value.part? step).map (truncate limit) := by
  cases value with
  | list items =>
    cases step with
    | item index => simp [part?, list?]
    | field name => simp [part?, field?]
  | object fields =>
    cases step with
    | item index => simp [part?, list?]
    | field name => simp [part?, field?, List.find?_map, Function.comp_def]
  | _ =>
    rw [truncate_scalar (by rw [depth])]
    cases step <;> rfl

theorem at?_truncate {path : List PathStep} (inside : path.length ≤ limit) :
    (truncate limit value).at? path =
      (value.at? path).map (truncate (limit - path.length)) := by
  induction path generalizing value limit with
  | nil => rfl
  | cons step path ih =>
    cases limit with
    | zero => cases inside
    | succ limit =>
      have deeper : path.length ≤ limit := Nat.le_of_succ_le_succ inside
      rw [at?, at?, part?_truncate, List.length_cons, Nat.succ_sub_succ]
      cases value.part? step with
      | none => rfl
      | some part => exact ih deeper

/-- Cutting a value off at a depth is a projection: what is left is no deeper, it is the value itself
exactly when the value is no deeper, and cutting it off again goes by the shallower depth. At every
path that is shorter than the depth it shows what the value shows there: nothing, the same scalar, a
list of the same length, or an object with the same fields in the same order. At the paths that are as
long as the depth it has the value's scalars, and null for the value's lists and objects. -/
theorem truncate_projects (limit : Nat) (value : Value) :
    (truncate limit value).depth ≤ limit ∧
      (truncate limit value = value ↔ value.depth ≤ limit) ∧
      (∀ path : List PathStep, path.length < limit →
        ((truncate limit value).at? path).map outline = (value.at? path).map outline) ∧
      (∀ path : List PathStep, path.length = limit → (truncate limit value).at? path =
        (value.at? path).map fun part => if part.depth = 0 then part else null) ∧
      ∀ other, truncate other (truncate limit value) = truncate (min limit other) value := by
  refine ⟨depth_truncate limit value, truncate_eq_self, ?_, ?_,
    fun other => truncate_truncate limit other value⟩
  · intro path shorter
    obtain ⟨rest, left⟩ := Nat.exists_eq_succ_of_ne_zero (Nat.sub_ne_zero_of_lt shorter)
    rw [at?_truncate (Nat.le_of_lt shorter), left, Option.map_map]
    exact congrArg (fun shows => (value.at? path).map shows) (funext (outline_truncate rest))
  · rintro path rfl
    rw [at?_truncate (Nat.le_refl _), Nat.sub_self]
    exact congrArg (fun shows => (value.at? path).map shows) (funext truncate_zero)

def nestedReport : Value :=
  .object [("a", .object [("b", .list [.ofNat 1])]), ("n", .ofNat 3)]

/-- Cut off at two, the report keeps its fields and the number, and loses the list. -/
theorem nestedReport_projects :
    let cut := truncate 2 nestedReport
    [PathStep.field "a"].length < 2 ∧
      (cut.at? [.field "a"]).map outline = some (.object ["b"]) ∧
      [PathStep.field "a", .field "b"].length = 2 ∧ cut.at? [.field "a", .field "b"] = some null ∧
      cut.at? [.field "n"] = some (.ofNat 3) ∧ cut ≠ nestedReport ∧
      truncate 1 cut = truncate 1 nestedReport := by
  obtain ⟨-, same, above, edge, again⟩ := truncate_projects 2 nestedReport
  have deep : ¬ nestedReport.depth ≤ 2 := by decide
  refine ⟨by decide, above _ (by decide), by decide, edge _ (by decide), rfl, ?_, again 1⟩
  exact fun whole => deep (same.mp whole)

end Value

end Metronome
