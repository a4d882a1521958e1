/-! # Representations and backends

The kinds of value a caller can hand over (`Representation`), and the two of them that arrays are
brought into (`Backend`). -/

namespace ArrayContract

/-- The array representation a declaration asks for. -/
inductive Backend
  | host
  | arrow
  deriving DecidableEq, Inhabited

/-- How a value is represented. -/
inductive Representation
  | native (backend : Backend)
  | nested
  | table
  | text
  | handle
  | tuple
  deriving DecidableEq

namespace Backend

def all : List Backend := [host, arrow]

/-- The name in a declaration. -/
def name : Backend → String
  | host => "host"
  | arrow => "arrow"

/-- The name of a backend's arrays. -/
def title : Backend → String
  | host => "host array"
  | arrow => "arrow tensor"

end Backend

def Representation.title : Representation → String
  | native b => b.title
  | nested => "nested sequence"
  | table => "table"
  | text => "string"
  | handle => "opaque value"
  | tuple => "tuple"

end ArrayContract
