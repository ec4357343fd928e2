import Herald.Settings
import Herald.Yaml.Node

/-!
# Settings from a document

The settings are fields of mappings. A field that is missing keeps its default, a field that nobody
knows is passed over, and a field that is given twice makes the document unusable. A text takes
whatever a scalar says. A count takes plain scalars only: decimal digits without a leading zero, or
digits of another base behind its mark.
-/
namespace Herald.Settings

open Yaml (Document Node)

/-- The count that digits of a base stand for; there must be at least one. -/
def countInBase? (base : Nat) (digits : List Char) : Option UInt64 := do
  let values ← digits.mapM fun c => (Text.hexValue? c).filter fun d => decide (d < base)
  let n := values.foldl (fun n d => base * n + d) 0
  if values.isEmpty || Count.limit ≤ n then none else some (UInt64.ofNat n)

/-- The base that a mark after a zero announces. -/
def baseOfMark? : Char → Option Nat
  | 'x' => some 16
  | 'o' => some 8
  | 'b' => some 2
  | _ => none

/-- The count that digits stand for, with or without the mark of a base. -/
def unsignedCount? (cs : List Char) : Option UInt64 :=
  match cs with
  -- A zero with more behind it is the beginning of a mark, never a leading zero.
  | '0' :: mark :: rest => (baseOfMark? mark).bind fun base => countInBase? base rest
  | digits => countInBase? 10 digits

/-- The count that the text of a plain scalar stands for. A plus sign may stand before it. -/
def count? (text : String) : Option UInt64 :=
  match text.toList with
  | '+' :: rest => unsignedCount? rest
  | cs => unsignedCount? cs

def isNull (text : String) : Bool :=
  text == "null" || text == "Null" || text == "NULL" || text == "~"

def integerTag : Yaml.Tag := Yaml.Tag.ofText "tag:yaml.org,2002:int"

def nullTag : Yaml.Tag := Yaml.Tag.ofText "tag:yaml.org,2002:null"

def readText (d : Document) (node : Node) : Option String :=
  match d.resolve node with
  | some (.scalar text _ _) => some text
  | _ => none

/-- A setting that is a count. A literal block will do if its tag says that it is a number. -/
def readCount (d : Document) (node : Node) : Option UInt64 :=
  match d.resolve node with
  | some (.scalar text .plain _) => count? text
  | some (.scalar text .literal (some tag)) => if tag = integerTag then count? text else none
  | _ => none

/-- A setting that is a count or nothing. -/
def readOptionalCount (d : Document) (node : Node) : Option (Option UInt64) :=
  match d.resolve node with
  | some (.scalar text .plain none) =>
    if text.isEmpty || isNull text then some none else (readCount d node).map some
  | some (.scalar text .plain (some tag)) =>
    if tag = nullTag then if isNull text then some none else none
    else (readCount d node).map some
  | _ => (readCount d node).map some

/-- The fields of a mapping by their names. A node for which nothing is written has no fields. -/
def fieldsOf (d : Document) (node : Node) : Option (List (String × Node)) :=
  match d.resolve node with
  | some (.mapping entries) => entries.mapM fun e => (readText d e.1).map fun name => (name, e.2)
  | some (.scalar "" .plain _) => some []
  | _ => none

/-- The setting of a name, or its default where it is not given; it must not be given twice. -/
def readField {α : Type} (fields : List (String × Node)) (name : String)
    (read : Node → Option α) (default : α) : Option α :=
  match fields.filter fun f => f.1 == name with
  | [] => some default
  | [f] => read f.2
  | _ => none

def readWorkers (d : Document) (node : Node) : Option WorkerSettings := do
  let fields ← fieldsOf d node
  let default := WorkerSettings.default
  let threads ← readField fields "threads" (readOptionalCount d) default.threads
  let multiplier ←
    readField fields "parallelism_multiplier" (readCount d) default.parallelismMultiplier
  let stem ← readField fields "thread_name_prefix" (readText d) default.threadNamePrefix
  pure ⟨threads, multiplier, stem⟩

def ofDocument? (d : Document) : Option Settings := do
  let fields ← fieldsOf d d.root
  let default := Settings.default
  let pool ← readField fields "pool" (readWorkers d) default.pool
  let channel ← readField fields "default_channel" (readText d) default.defaultChannel
  pure ⟨pool, channel⟩

end Herald.Settings
