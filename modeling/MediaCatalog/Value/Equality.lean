import MediaCatalog.Value.Basic

/-!
Equality of values by content. Floats are equal as numbers, so a value that
holds a NaN anywhere differs from itself. Dictionaries are equal when they have
the same keys with equal values, in whatever order. Collection nodes are equal
when their contents are; which of them are shared does not matter.
-/

namespace MediaCatalog

mutual

/-- Equality by content. -/
def Value.equal : Value → Value → Bool
  | .none, .none => true
  | .int left, .int right => left == right
  | .float left, .float right => left == right
  | .string left, .string right => left == right
  | .binary left, .binary right => left == right
  | .list left, .list right => equalItems left right
  | .dict left, .dict right => left.length == right.length && equalEntries left right
  | .collection left, .collection right => left.equal right
  | .error left, .error right => left == right
  | _, _ => false

/-- Equality of collections by content, without regard to identity. -/
def Collection.equal : Collection → Collection → Bool
  | .node _ kind attributes operands ids, .node _ kind' attributes' operands' ids' =>
    kind == kind'
      && (attributes.length == attributes'.length && equalEntries attributes attributes')
      && equalOperands operands operands'
      && ids == ids'

def equalItems : List Value → List Value → Bool
  | [], [] => true
  | left :: lefts, right :: rights => left.equal right && equalItems lefts rights
  | _, _ => false

/-- Every entry on the left has an equal value under its key on the right. -/
def equalEntries : List (String × Value) → List (String × Value) → Bool
  | [], _ => true
  | (key, left) :: lefts, rights =>
    (match Dict.find? rights key with
      | some right => left.equal right
      | none => false)
    && equalEntries lefts rights

def equalOperands : List Collection → List Collection → Bool
  | [], [] => true
  | left :: lefts, right :: rights => left.equal right && equalOperands lefts rights
  | _, _ => false

end

instance : BEq Value := ⟨Value.equal⟩

instance : BEq Collection := ⟨Collection.equal⟩

end MediaCatalog
