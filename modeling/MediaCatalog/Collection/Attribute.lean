/-!
Names of the attributes that operator nodes carry, and the fixed values that
some of them take.
-/

namespace MediaCatalog.Attribute

/-- The name of a saved collection, on reference nodes. -/
def reference : String := "reference"

/-- The namespace of a saved collection, on reference nodes. -/
def space : String := "namespace"

/-- The variety of a filter or order node. -/
def type : String := "type"

/-- The property that a filter or order node looks at. -/
def field : String := "field"

/-- What a filter node compares with. -/
def value : String := "value"

/-- The direction of an order node. -/
def direction : String := "direction"

def ascending : String := "ASC"

def descending : String := "DESC"

/-- How many ids a limit node skips. -/
def start : String := "start"

/-- How many ids a limit node keeps, 0 for all. -/
def length : String := "length"

end MediaCatalog.Attribute
