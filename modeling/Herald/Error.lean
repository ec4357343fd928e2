import Herald.Settings.Count
import Herald.Listener.Parameter

/-!
# Errors

What can go wrong, as causes.

An operation of the engine is refused for one of the reasons of `Refusal`. A listener that does not
answer a dispatch has one of the reasons of `ListenerError`, which is data in its record and stops
nobody else.
-/
namespace Herald

/-- The part of the engine that an error speaks of. -/
inductive ErrorArea where
  | listener | configuration | validation | property | serialization | file
  deriving DecidableEq, Repr

def ErrorArea.lead : ErrorArea → String
  | .listener => "Invalid listener"
  | .configuration => "Invalid configuration"
  | .validation => "Configuration validation error"
  | .property => "Invalid property"
  | .serialization => "Serialization error"
  | .file => "IO error"

/-- Why an operation is refused. -/
inductive Refusal where
  /-- a listener asks for all channels but some -/
  | excludingListener (listener channel : String)
  /-- the parameter that should take the event takes something else -/
  | firstParameterNotEvent (listener : String) (found : ParameterType)
  /-- there is no parameter to take the event -/
  | noParameters (listener : String)
  /-- the variable for the number of threads holds no count -/
  | threadCount (variableName text : String) (fault : CountFault)
  | zeroThreads
  | zeroMultiplier
  | blankThreadName
  | blankDefaultChannel
  | excludingDefaultChannel (channel : String)
  /-- two properties of an event have one name -/
  | duplicateProperty (property eventType : String)
  /-- a property holds a value that its type does not take -/
  | mistypedProperty (property : String) (declared actual : ValueType)
  /-- the data of an event is not an object -/
  | notAnObject (actual : ValueType)
  /-- the text of the settings cannot be read -/
  | unreadableText
  /-- the file of the settings cannot be read -/
  | unreadableFile

namespace Refusal

/-- The part of the engine that the error speaks of. -/
def area : Refusal → ErrorArea
  | excludingListener .. => .listener
  | firstParameterNotEvent .. => .listener
  | noParameters .. => .listener
  | threadCount .. => .configuration
  | zeroThreads => .validation
  | zeroMultiplier => .validation
  | blankThreadName => .validation
  | blankDefaultChannel => .validation
  | excludingDefaultChannel .. => .validation
  | duplicateProperty .. => .property
  | mistypedProperty .. => .property
  | notAnObject .. => .property
  | unreadableText => .serialization
  | unreadableFile => .file

/-- What the error says of the case at hand; nothing where a reader of files gives the words. -/
def detail? : Refusal → Option String
  | excludingListener listener channel =>
    s!"Listener '{listener}' cannot listen on exclude channel expression '{channel}'"
  | firstParameterNotEvent listener found =>
    s!"First parameter of '{listener}' must be the event, found {found.inspect}"
  | noParameters listener => s!"Listener '{listener}' declares no parameters"
  | threadCount variableName text fault =>
    s!"{variableName} must be a thread count, got '{text}': {fault.message}"
  | zeroThreads => "pool.threads must be greater than zero"
  | zeroMultiplier => "pool.parallelism_multiplier must be greater than zero"
  | blankThreadName => "pool.thread_name_prefix cannot be empty"
  | blankDefaultChannel => "default_channel cannot be empty"
  | excludingDefaultChannel channel =>
    s!"default_channel cannot be an exclude expression: {channel}"
  | duplicateProperty property eventType => s!"Duplicate property '{property}' on {eventType}"
  | mistypedProperty property declared actual =>
    s!"Property '{property}' declared as {declared.name} holds a {actual.name} value"
  | notAnObject actual => s!"Event data must be a JSON object, got {actual.name}"
  | unreadableText => none
  | unreadableFile => none

def message (e : Refusal) : String :=
  match e.detail? with
  | some detail => e.area.lead ++ ": " ++ detail
  | none => e.area.lead

end Refusal

/-- A failure that a listener reports, its outermost text first. Each further text is a cause of the
one before it. -/
structure Failure where
  text : String
  causes : List String
  deriving DecidableEq, Repr

namespace Failure

def ofText (text : String) : Failure := ⟨text, []⟩

/-- The failure as the cause of another one. -/
def inContext (f : Failure) (text : String) : Failure := ⟨text, f.text :: f.causes⟩

/-- The text with every line but the first moved to the right. -/
def indentLines (lead margin text : String) : String :=
  lead ++ ("\n" ++ margin).intercalate ((text.toList.splitOn '\n').map String.ofList)

/-- The inspection text of a failure: the outermost text, and below it the causes, numbered where
there are several. -/
def inspect (f : Failure) : String :=
  match f.causes with
  | [] => f.text
  | [cause] => f.text ++ "\n\nCaused by:\n" ++ indentLines "    " "    " cause
  | causes =>
    let numbered := causes.zipIdx.map fun (cause, i) =>
      let number := toString i
      let space := String.ofList (List.replicate (5 - number.length) ' ')
      "\n" ++ indentLines (space ++ number ++ ": ") "       " cause
    f.text ++ "\n\nCaused by:" ++ String.join numbered

end Failure

/-- Why a listener did not answer a dispatch. -/
inductive ListenerError where
  /-- the listener ran and failed -/
  | exception (failure : Failure)
  /-- the event lacks a property that the listener needs -/
  | propertyNotFound (name : String) (type : ValueType)
  /-- the listener declares nothing that it could be given -/
  | missingEventType
  /-- the event is asked for at a place where it cannot be given -/
  | couldNotDispatch
  /-- the event is cancelled and the listener leaves out cancelled events -/
  | eventCancelled
  deriving DecidableEq, Repr

namespace ListenerError

/-- Whether the listener did not run at all. -/
def isSkip : ListenerError → Bool
  | exception _ => false
  | _ => true

/-- The wording of an error; of a failure it shows the outermost text. -/
def message : ListenerError → String
  | exception failure => s!"Exception in listener: {failure.text}"
  | propertyNotFound name type => s!"Property not found: '{name}' of type {type.name}"
  | missingEventType => "Listener declares no event type"
  | couldNotDispatch => "Could not dispatch event to listener"
  | eventCancelled => "Event cancelled, listener not invoked"

def inspect : ListenerError → String
  | exception failure => Text.caseText "Exception" [failure.inspect]
  | propertyNotFound name type =>
    Text.recordText "PropertyNotFound" [("name", Text.quoted name), ("value_type", type.inspect)]
  | missingEventType => "MissingEventType"
  | couldNotDispatch => "CouldNotDispatch"
  | eventCancelled => "EventCancelled"

end ListenerError
end Herald
