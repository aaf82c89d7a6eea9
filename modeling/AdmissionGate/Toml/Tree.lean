import AdmissionGate.Toml.Value

/-!
# Toml/Tree — tables as they are being defined

While a text is read, each table remembers how it came to be: only mentioned on the way to another
one, defined under a header of its own, or defined by dotted keys.  What may still be added depends
on that.  Inline tables and arrays of values are closed as soon as they are written.
-/

namespace AdmissionGate.Toml

/-- How a table came to be. -/
inductive Origin where
  /-- Mentioned on the way to another table. -/
  | mentioned
  /-- Defined under a header of its own. -/
  | header
  /-- Defined by dotted keys. -/
  | dotted
deriving DecidableEq

/-- What stands under a key. -/
inductive Node where
  | value (value : Value)
  | table (origin : Origin) (children : List (String × Node))
  /-- An array of tables: those that are finished, last one first, and the one being filled. -/
  | tables (finished : List (List (String × Node))) (current : List (String × Node))

/-- The keys of a table with what stands under them, in the order of their definition. -/
abbrev Children := List (String × Node)

/-- Replaces what stands under a key by what a function makes of it, or adds it at the end. -/
def update (key : String) (f : Option Node → Option Node) : Children → Option Children
  | [] => (f none).map fun node => [(key, node)]
  | (k, node) :: rest =>
    if k = key then (f (some node)).map fun node => (k, node) :: rest
    else (update key f rest).map ((k, node) :: ·)

/-- Works on the table that a header path leads to.  Tables that are missing on the way come to be,
and an array of tables leads into its last table. -/
def within (f : Children → Option Children) : List String → Children → Option Children
  | [], children => f children
  | key :: path, children =>
    update key (fun
      | none => (within f path []).map (.table .mentioned)
      | some (.table origin children) => (within f path children).map (.table origin)
      | some (.tables finished current) => (within f path current).map (.tables finished)
      | some (.value _) => none) children

/-- Opens the table of a header.  It may have been mentioned before, but not defined. -/
def openTable (key : String) : Children → Option Children :=
  update key fun
    | none => some (.table .header [])
    | some (.table .mentioned children) => some (.table .header children)
    | some _ => none

/-- Opens a further table in the array of tables of a header. -/
def openElement (key : String) : Children → Option Children :=
  update key fun
    | none => some (.tables [] [])
    | some (.tables finished current) => some (.tables (current :: finished) [])
    | some _ => none

/-- Defines a key that is not defined yet. -/
def define (key : String) (value : Value) : Children → Option Children :=
  update key fun
    | none => some (.value value)
    | some _ => none

/-- Defines a key under a path of dotted keys.  The last table on the path has to be one that dotted
keys define, and no table on it may have a header of its own. -/
def defineDotted (value : Value) : (path : List String) → (key : String) → Children →
    Option Children
  | [], key, children => define key value children
  | step :: path, key, children =>
    update step (fun
      | none => (defineDotted value path key []).map (.table .dotted)
      | some (.table .dotted children) =>
        (defineDotted value path key children).map (.table .dotted)
      -- A table that a header path mentioned may be passed through, but not added to.
      | some (.table .mentioned children) =>
        if path.isEmpty then none
        else (defineDotted value path key children).map (.table .mentioned)
      | some (.tables finished current) =>
        if path.isEmpty then none
        else (defineDotted value path key current).map (.tables finished)
      | some _ => none) children

mutual

/-- The value that a node has come to be. -/
def Node.toValue : Node → Value
  | .value value => value
  | .table _ children => .table (membersOf children)
  | .tables finished current => .array ((tablesOf finished).reverse ++ [.table (membersOf current)])

/-- The members that the children of a table have come to be. -/
def membersOf : List (String × Node) → List (String × Value)
  | [] => []
  | (key, node) :: rest => (key, node.toValue) :: membersOf rest

/-- The tables of an array of tables. -/
def tablesOf : List (List (String × Node)) → List Value
  | [] => []
  | children :: rest => .table (membersOf children) :: tablesOf rest

end

end AdmissionGate.Toml
