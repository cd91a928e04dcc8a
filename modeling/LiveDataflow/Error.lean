import LiveDataflow.Port
import LiveDataflow.Json.Printer
import LiveDataflow.Text.Quoted

/-!
# What can go wrong

A failure of the library itself is a `Cause`, which holds what the message speaks of and nothing
else.  What a deployer or another outside party reports comes with a text of its own.  Each failure
belongs to a category, whose heading opens the message, and each category to a kind that tells a
caller what to do next.
-/

set_option autoImplicit false

namespace LiveDataflow

inductive Category where
  | validation
  | notFound
  | notSupported
  | configuration
  | deployment
  | io
  | other
  deriving DecidableEq, Repr

/-- What a failure means to a caller: try other edits, mend a reference, mend the call, or give up. -/
inductive Kind where
  | validation
  | notFound
  | usage
  | internal
  deriving DecidableEq, Repr

namespace Category

def kind : Category → Kind
  | validation => .validation
  | notFound => .notFound
  | notSupported | configuration => .usage
  | deployment | io | other => .internal

def heading : Category → String
  | validation => "Plan validation failed: "
  | notFound => "Reference not found: "
  | notSupported => "Operation not supported: "
  | configuration => "Invalid configuration: "
  | deployment => "Deployment failed: "
  | io => "IO error: "
  | other => ""

end Category

/-- The failures that arise here. -/
inductive Cause where
  -- The plan would not be sound.
  | operatorExists (operator : String)
  | noPartitions (operator : String)
  | streamExists (stream : String)
  | sinkRepeated (sink : PortAddress)
  | sinkTaken (sink : PortAddress) (stream : String)
  | typesDiffer (source : PortAddress) (sourceType : Option String) (sink : PortAddress)
      (sinkType : Option String)
  | closesCycle (source sink : PortAddress)
  | noSinks (stream : String)
  | cyclic
  | alreadyMaterialized (operator : String)
  | otherSource (stream : String) (source : PortAddress)
  | unknownSource (operator : String)
  | onlyConsumer (operator : String) (streams : List String)
  | hasOutputs (operator : String) (streams : List String)
  | notNew (operator property value : String)
  -- Something that is named is not there.
  | badAddress (fault : PortAddress.Fault) (address : String)
  | unknownOperator (operator : String)
  | unknownPort (port operator : String)
  | unknownStream (stream : String)
  | unknownSink (stream : String) (sink : PortAddress)
  | unknownInstance (label : String)
  -- The operation needs more than there is.
  | needsLayout
  -- A configuration cannot be used.
  | emptyContainers
  | emptyOperators
  | unreadable
  | inFile (path : String) (cause : Cause)
  | notAnObject (typeName : String) (config : Json)
  | objectExpected (typeName : String) (config : Json)
  | badPropertyName (property : String)
  | crossesValue (property segment : String)
  -- A file cannot be read.
  | fileMissing
  | fileIsDirectory
  | fileNotText
  -- An operator does not take a configuration, for a reason of its own.
  | refused (category : Category) (text : String)

namespace Cause

def category : Cause → Category
  | operatorExists .. | noPartitions .. | streamExists .. | sinkRepeated .. | sinkTaken ..
  | typesDiffer .. | closesCycle .. | noSinks .. | cyclic | alreadyMaterialized .. | otherSource ..
  | unknownSource .. | onlyConsumer .. | hasOutputs .. | notNew .. => .validation
  | badAddress .. | unknownOperator .. | unknownPort .. | unknownStream .. | unknownSink ..
  | unknownInstance .. => .notFound
  | needsLayout => .notSupported
  | emptyContainers | emptyOperators | unreadable | inFile .. | notAnObject .. | objectExpected ..
  | badPropertyName .. | crossesValue .. => .configuration
  | fileMissing | fileIsDirectory | fileNotText => .io
  | refused category _ => category

/-- The message without its heading. -/
def text : Cause → String
  | operatorExists op => s!"Operator {op} already exists"
  | noPartitions op => s!"Operator {op} needs at least one partition"
  | streamExists stream => s!"Stream {stream} already exists"
  | sinkRepeated sink => s!"Input port {sink.text} listed more than once"
  | sinkTaken sink stream => s!"Input port {sink.text} already connected to stream {stream}"
  | typesDiffer source sourceType sink sinkType =>
    "Port types differ: " ++ source.text ++ " (" ++ Text.quoteOption sourceType ++ ") -> " ++
      sink.text ++ " (" ++ Text.quoteOption sinkType ++ ")"
  | closesCycle source sink => s!"Connecting {source.text} -> {sink.text} would create a cycle"
  | noSinks stream => s!"Stream {stream} has no sinks"
  | cyclic => "Plan contains cycles"
  | alreadyMaterialized op => s!"Operator {op} is already materialized"
  | otherSource stream source => s!"Stream {stream} already connected to {source.text}"
  | unknownSource op => s!"Invalid operator name {op}"
  | onlyConsumer op streams =>
    s!"Operator {op} connected to input streams " ++ Text.quoteList streams
  | hasOutputs op streams =>
    s!"Operator {op} connected to output streams " ++ Text.quoteList streams
  | notNew op property value =>
    s!"Properties can only be set on new operators: {op} {property} {value}"
  | badAddress .noDot address =>
    "Invalid port address '" ++ address ++ "'. Expected format: 'operator.port'"
  | badAddress .emptyName address =>
    "Empty operator or port name in port address '" ++ address ++ "'"
  | unknownOperator op => s!"Invalid operator name {op}"
  | unknownPort port op => s!"Invalid port {port} ({op})"
  | unknownStream stream => s!"Stream {stream} is not found!"
  | unknownSink stream sink => s!"Stream {stream} has no sink {sink.text}"
  | unknownInstance label => s!"Physical operator {label} not found"
  | needsLayout => "apply_changes requires a physical plan"
  | emptyContainers => "max_operators_per_container must be at least 1"
  | emptyOperators => "default_partition_count must be at least 1"
  | unreadable => "Failed to parse config"
  | inFile path cause => path ++ ": " ++ cause.category.heading ++ cause.text
  | notAnObject typeName config => typeName ++ " config is not an object: " ++ config.text
  | objectExpected typeName config => typeName ++ " expects an object config, got " ++ config.text
  | badPropertyName property => "Invalid property name '" ++ property ++ "'"
  | crossesValue property segment =>
    "Property '" ++ property ++ "' crosses non-object field '" ++ segment ++ "'"
  | fileMissing => "No such file or directory (os error 2)"
  | fileIsDirectory => "Is a directory (os error 21)"
  | fileNotText => "stream did not contain valid UTF-8"
  | refused _ text => text

end Cause

inductive PlanError where
  | raised (cause : Cause)
  /-- Passed on from outside, with a text of its own. -/
  | reported (category : Category) (text : String)

namespace PlanError

instance : Coe Cause PlanError := ⟨raised⟩

def category : PlanError → Category
  | raised cause => cause.category
  | reported category _ => category

def text : PlanError → String
  | raised cause => cause.text
  | reported _ text => text

def kind (e : PlanError) : Kind := e.category.kind

/-- The whole message. -/
def message (e : PlanError) : String := e.category.heading ++ e.text

end PlanError

end LiveDataflow
