import MediaCatalog.Value.Basic
import MediaCatalog.Wire.Format

/-!
Writing values. A message is a sequence of values, and a collection node is
written in full only once in it. Nodes are numbered from 0 as they are
finished, a node after its attributes and its operands; where a node comes
again, its number stands in its place. So a message keeps which nodes are
shared and does not grow with the number of paths to them.
-/

namespace MediaCatalog

open Wire

mutual

/-- The bytes of a value, and the nodes written so far in the order of their
numbers. -/
def Value.write : Value → List NodeId → List UInt8 × List NodeId
  | .none, written => ([Marker.none.code], written)
  | .int number, written =>
    (Marker.int.code :: bigEndian 8 number.toUInt64.toNat, written)
  | .float number, written =>
    (Marker.float.code :: bigEndian 8 number.toBits.toNat, written)
  | .string string, written => (Marker.string.code :: text string, written)
  | .binary bytes, written =>
    (Marker.binary.code :: (word bytes.length ++ bytes), written)
  | .list items, written =>
    let (body, written) := writeItems items written
    (Marker.list.code :: (word items.length ++ body), written)
  | .dict entries, written =>
    let (body, written) := writeEntries entries written
    (Marker.dict.code :: (word entries.length ++ body), written)
  | .collection node, written => node.write written
  | .error message, written => (Marker.error.code :: text message, written)

/-- The bytes of a collection: a reference if the node was written before. -/
def Collection.write : Collection → List NodeId → List UInt8 × List NodeId
  | .node id kind attributes operands ids, written =>
    match written.idxOf? id with
    | some number => (Marker.reference.code :: word number, written)
    | none =>
      let (attributeBytes, written) := writeEntries attributes written
      let (operandBytes, written) := writeOperands operands written
      (Marker.collection.code :: kind.code ::
          (word attributes.length ++ attributeBytes
            ++ (word ids.length ++ ids.flatMap fun id => bigEndian 8 id.toUInt64.toNat)
            ++ (word operands.length ++ operandBytes)),
        written ++ [id])

def writeItems : List Value → List NodeId → List UInt8 × List NodeId
  | [], written => ([], written)
  | item :: rest, written =>
    let (head, written) := item.write written
    let (tail, written) := writeItems rest written
    (head ++ tail, written)

def writeEntries : List (String × Value) → List NodeId → List UInt8 × List NodeId
  | [], written => ([], written)
  | (key, value) :: rest, written =>
    let (head, written) := value.write written
    let (tail, written) := writeEntries rest written
    (text key ++ head ++ tail, written)

def writeOperands : List Collection → List NodeId → List UInt8 × List NodeId
  | [], written => ([], written)
  | operand :: rest, written =>
    let (head, written) := operand.write written
    let (tail, written) := writeOperands rest written
    (head ++ tail, written)

end

/-- The encoding of one value as a message of its own. -/
def Value.encode (value : Value) : List UInt8 := (value.write []).1

/-- The encoding of several values as one message. -/
def encodeAll (values : List Value) : List UInt8 := (writeItems values []).1

/-- A message in the making. -/
structure Encoder where
  output : List UInt8 := []
  written : List NodeId := []

namespace Encoder

def encode (encoder : Encoder) (value : Value) : Encoder :=
  let (bytes, written) := value.write encoder.written
  { output := encoder.output ++ bytes, written }

def encodeAll (encoder : Encoder) (values : List Value) : Encoder :=
  values.foldl encode encoder

def size (encoder : Encoder) : Nat := encoder.output.length

/-- The message, and an encoder that knows nothing of it. -/
def finish (encoder : Encoder) : List UInt8 × Encoder := (encoder.output, {})

end Encoder

end MediaCatalog
