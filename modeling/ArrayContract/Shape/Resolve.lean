import ArrayContract.Fault

/-! # The shape that a declaration gives an array

`Shape.resolve` finds the shape in which an array is to be read. Without free axes the sizes have to
agree; a single free axis takes what the others leave; with more free axes nothing can be inferred,
and the array keeps its shape if that has the declared axes. -/

namespace ArrayContract.Shape

/-- The lengths of the fixed axes. -/
def fixedAxes (axes : List Axis) : Shape := axes.filterMap Axis.length?

/-- The number of free axes. -/
def freeAxes (axes : List Axis) : Nat := axes.countP Axis.isAny

@[simp] theorem fixedAxes_fixed (n : Nat) (axes : List Axis) :
    fixedAxes (.fixed n :: axes) = n :: fixedAxes axes := rfl

@[simp] theorem fixedAxes_any (axes : List Axis) : fixedAxes (.any :: axes) = fixedAxes axes := rfl

@[simp] theorem freeAxes_fixed (n : Nat) (axes : List Axis) :
    freeAxes (.fixed n :: axes) = freeAxes axes :=
  List.countP_cons_of_neg nofun

@[simp] theorem freeAxes_any (axes : List Axis) : freeAxes (.any :: axes) = freeAxes axes + 1 :=
  List.countP_cons_of_pos rfl

/-- The first fixed axis, counted from `index`, that has another length, with that length and the
declared one. -/
def disagreement? (index : Nat) : List Axis → Shape → Option (Nat × Nat × Nat)
  | .fixed expected :: axes, actual :: shape =>
    if expected = actual then disagreement? (index + 1) axes shape
    else some (index, actual, expected)
  | .any :: axes, _ :: shape => disagreement? (index + 1) axes shape
  | _, _ => none

/-- The shape with the declared axes in which an array of shape `current` is read. -/
def resolve (axes : List Axis) (current : Shape) : Except Fault Shape :=
  let refuse (reason : Misfit) : Except Fault Shape :=
    .error (.shapeMismatch (.axes axes) current reason)
  match current.count?, (fixedAxes axes).count? with
  | none, _ => refuse .uncountableArray
  | some _, none => refuse .uncountableRequest
  | some count, some known =>
    match freeAxes axes with
    | 0 => if known = count then .ok (fixedAxes axes) else refuse (.size count axes)
    | 1 =>
      if known = 0 ∨ count % known ≠ 0 then refuse (.size count axes)
      else .ok (axes.map (Axis.fill (count / known)))
    | _ =>
      if axes.length ≠ current.length then refuse (.rank axes.length current.length)
      else
        match disagreement? 0 axes current with
        | some (index, actual, expected) => refuse (.axis index actual expected)
        | none => .ok current

end ArrayContract.Shape
