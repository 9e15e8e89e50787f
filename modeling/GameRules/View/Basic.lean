import GameRules.View.Operation

/-!
# Views

A view is a query: a source of rows, the stages they run through, and the parameters it is invoked
with. It is used by name or written down in place.
-/

namespace GameRules

/-- A declared parameter of a view. -/
structure ViewParam where
  /-- Its type, for information only. -/
  type : ParamType
  /-- What it is if nothing is given. -/
  default : Option Json

/-- A query. -/
structure View where
  /-- Its name, if it has one. -/
  name : Option String
  /-- Where the rows come from. -/
  source : String
  /-- The stages, the first one first. -/
  pipeline : List ViewOperation
  /-- The parameters by name. -/
  params : Entries ViewParam

instance : Inhabited View := ⟨⟨none, "", [], []⟩⟩

namespace ViewParam

/-- Decodes a declaration; a text declares a type alone. -/
def decode (document : Json) : Decoded ViewParam :=
  match document with
  | .string word => do
    let type ← Fields.keywordOf "type" word
    return ⟨type, none⟩
  | other => do
    let fields ← Fields.of .viewParameter other
    let type ← fields.keyword? "type"
    return ⟨type.getD .any, fields.value? "default"⟩

/-- The document of a declaration. -/
def encode (param : ViewParam) : Json :=
  Record.empty.keyword "type" param.type |>.optional "default" param.default |>.build

end ViewParam

namespace View

/-- A view of all rows of a source. -/
def ofSource (source : String) : View := ⟨none, source, [], []⟩

/-- The view with one more stage at its end. -/
def push (view : View) (operation : ViewOperation) : View :=
  { view with pipeline := view.pipeline ++ [operation] }

/-- Whether some stage reduces the rows to a single value. -/
def isAggregation (view : View) : Bool := view.pipeline.any ViewOperation.isAggregation

/-- Whether some stage measures distances. -/
def isSpatial (view : View) : Bool := view.pipeline.any ViewOperation.isSpatial

/-- Whether the view takes parameters. -/
def isParameterized (view : View) : Bool := !view.params.isEmpty

/-- The stages of a document; an absent field means none. -/
def decodePipeline {whole : Json} (fields : Fields whole) : Decoded (List ViewOperation) :=
  match fields.value? "pipeline" with
  | none => .ok []
  | some (.array items) =>
    decodeItems "pipeline operation" 0 items fun item _ => ViewOperation.decode item
  | some other => Decoded.fail (.malformed .view (.wrongShape "'pipeline'" "a list" other.kindName))

/-- The parameters of a document; an absent field means none. -/
def decodeParams {whole : Json} (fields : Fields whole) : Decoded (Entries ViewParam) :=
  match fields.value? "params" with
  | none => .ok []
  | some (.object entries) =>
    decodeEntries (.named "param") entries fun _ value _ => ViewParam.decode value
  | some other => Decoded.fail (.malformed .view (.wrongShape "'params'" "a mapping" other.kindName))

/-- Decodes a view. -/
def decode (document : Json) : Decoded View := do
  let fields ← Fields.of .view document
  let pipeline ← decodePipeline fields
  let params ← decodeParams fields
  let name ← fields.nonemptyString? "name"
  let source ← fields.requiredString "source"
  return ⟨name, source, pipeline, params⟩

/-- The document of a view. -/
def encode (view : View) : Json :=
  Record.empty.optional "name" (view.name.map .string)
    |>.text "source" view.source
    |>.nonemptyList "pipeline" (view.pipeline.map ViewOperation.encode)
    |>.nonemptyMapping "params" (view.params.mapValues ViewParam.encode)
    |>.build

/-- How diagnostics name the view. -/
def label (view : View) : String :=
  match view.name with
  | some name => "view '" ++ name ++ "'"
  | none => "view"

/-- Collects the collection that the rows come from; a source of another kind is read elsewhere. -/
def collectSource (source : String) : Walk :=
  match Path.kind ⟨source⟩ with
  | .state | .field => Collector.readCollection source
  | _ => id

/-- Collects what a view reads. -/
def collect (view : View) : Walk := fun collector =>
  Collector.within view.label
    (Collector.eachFrom
      (fun position operation =>
        Collector.within ("pipeline operation " ++ Nat.repr position) operation.collect)
      0 view.pipeline)
    (collectSource view.source collector)

end View

/-- A view, by name or in place. -/
inductive ViewRef where
  /-- The view of this name. -/
  | named (name : String)
  /-- This view. -/
  | inPlace (view : View)

namespace ViewRef

/-- Decodes a text as the name of a view and an object as a view. -/
def decode (document : Json) : Decoded ViewRef :=
  match document with
  | .string text =>
    let name := (Text.stripFront? "view:".toList text.toList).getD text.toList
    if name.isEmpty then Decoded.fail (.invalidValue "targets" .emptyViewName)
    else .ok (named (String.ofList name))
  | .object entries => inPlace <$> View.decode (.object entries)
  | other => Decoded.fail (.malformed .viewReference (.notAView other.kindName))

/-- The document of a reference to a view. -/
def encode : ViewRef → Json
  | named name => .string name
  | inPlace view => view.encode

/-- Collects what a view in place reads; a named view is read where it is declared. -/
def collect : ViewRef → Walk
  | named _ => id
  | inPlace view => view.collect

end ViewRef

end GameRules
