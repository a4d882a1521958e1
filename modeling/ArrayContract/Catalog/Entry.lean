import ArrayContract.Element.Basic
import ArrayContract.Shape.Pattern

/-! # Catalog entries

A `CatalogEntry` records one array that a function takes or returns: its name, the element type and
the shape that are enforced, and the side of the call it belongs to. -/

namespace ArrayContract

/-- The type of an argument as a query engine sees it; every argument is an array. -/
inductive LogicalType
  | ndArray
  deriving DecidableEq, Inhabited

namespace LogicalType

def all : List LogicalType := [ndArray]

/-- The name in a catalog. -/
def name : LogicalType → String
  | ndArray => "ND_ARRAY"

/-- The name shown to a reader. -/
def title : LogicalType → String
  | ndArray => "NDARRAY"

end LogicalType

/-- The record of one input or output of a function. -/
structure CatalogEntry where
  name : String
  logicalType : LogicalType
  nullable : Bool
  type : DeclaredType
  shape : ShapePattern
  isInput : Bool
  deriving DecidableEq

end ArrayContract
