import ApiGate.Message

/-!
# JSON documents

A document as the parser sees it: the members of an object are a sequence, so a
key may be there twice. `events` is the stream of events that `nlohmann::json`
reports to a parse callback, with the number of containers around each event;
`nodes` lists every value of a document with the steps that lead to it.
-/

namespace ApiGate

/-- The types of `nlohmann::json`. The parser makes an integer `unsigned` unless it is negative,
and a `float` of everything else that is a number. -/
inductive Json where
  | null
  | boolean (value : Bool)
  | unsigned (value : UInt64)
  | integer (value : Int64)
  | float
  | string (value : Text)
  | array (elements : List Json)
  | object (members : List (Text × Json))

namespace Json

def isObject : Json → Bool
  | .object _ => true
  | _ => false

def isArray : Json → Bool
  | .array _ => true
  | _ => false

/-- Neither an array nor an object. -/
def isScalar (v : Json) : Bool := !v.isObject && !v.isArray

theorem container_or_scalar (v : Json) :
    (∃ elements, v = .array elements) ∨ (∃ members, v = .object members) ∨ v.isScalar = true := by
  cases v with
  | array elements => exact .inl ⟨elements, rfl⟩
  | object members => exact .inr (.inl ⟨members, rfl⟩)
  | _ => exact .inr (.inr rfl)

inductive ParseEvent where
  | arrayStart (depth : Nat)
  | arrayEnd (depth : Nat)
  | objectStart (depth : Nat)
  | objectEnd (depth : Nat)
  | key (depth : Nat) (name : Text)
  | value (depth : Nat) (parsed : Json)

mutual

/-- `depth` is the number of containers around the value. A key is reported from inside its
object, the end of a container from outside it. -/
def events (depth : Nat) : Json → List ParseEvent
  | .array elements => .arrayStart depth :: (elementEvents (depth + 1) elements ++ [.arrayEnd depth])
  | .object members => .objectStart depth :: (memberEvents (depth + 1) members ++ [.objectEnd depth])
  | .null => [.value depth .null]
  | .boolean b => [.value depth (.boolean b)]
  | .unsigned n => [.value depth (.unsigned n)]
  | .integer n => [.value depth (.integer n)]
  | .float => [.value depth .float]
  | .string s => [.value depth (.string s)]

def elementEvents (depth : Nat) : List Json → List ParseEvent
  | [] => []
  | v :: rest => events depth v ++ elementEvents depth rest

def memberEvents (depth : Nat) : List (Text × Json) → List ParseEvent
  | [] => []
  | (name, v) :: rest => .key depth name :: (events depth v ++ memberEvents depth rest)

end

/-- A step from a container into it. -/
inductive Step where
  | element
  | member (name : Text)
  deriving DecidableEq

mutual

def nodes (path : List Step) : Json → List (List Step × Json)
  | .array elements => (path, .array elements) :: elementNodes (path ++ [.element]) elements
  | .object members => (path, .object members) :: memberNodes path members
  | .null => [(path, .null)]
  | .boolean b => [(path, .boolean b)]
  | .unsigned n => [(path, .unsigned n)]
  | .integer n => [(path, .integer n)]
  | .float => [(path, .float)]
  | .string s => [(path, .string s)]

def elementNodes (path : List Step) : List Json → List (List Step × Json)
  | [] => []
  | v :: rest => nodes path v ++ elementNodes path rest

def memberNodes (path : List Step) : List (Text × Json) → List (List Step × Json)
  | [] => []
  | (name, v) :: rest => nodes (path ++ [.member name]) v ++ memberNodes path rest

end

theorem events_scalar {v : Json} (h : v.isScalar = true) (depth : Nat) :
    events depth v = [.value depth v] := by
  cases v with
  | array elements => cases h
  | object members => cases h
  | _ => simp only [events]

theorem mem_elementNodes {path : List Step} {elements : List Json} {n : List Step × Json} :
    n ∈ elementNodes path elements ↔ ∃ v ∈ elements, n ∈ nodes path v := by
  induction elements with
  | nil => simp [elementNodes]
  | cons v rest ih => simp [elementNodes, ih]

theorem mem_memberNodes {path : List Step} {members : List (Text × Json)}
    {n : List Step × Json} :
    n ∈ memberNodes path members
      ↔ ∃ m ∈ members, n ∈ nodes (path ++ [.member m.1]) m.2 := by
  induction members with
  | nil => simp [memberNodes]
  | cons m rest ih => simp [memberNodes, ih]

theorem mem_nodes_array {path : List Step} {elements : List Json} {n : List Step × Json} :
    n ∈ nodes path (.array elements) ↔ n = (path, .array elements)
      ∨ ∃ v ∈ elements, n ∈ nodes (path ++ [.element]) v := by
  rw [nodes, List.mem_cons, mem_elementNodes]

theorem mem_nodes_object {path : List Step} {members : List (Text × Json)}
    {n : List Step × Json} :
    n ∈ nodes path (.object members) ↔ n = (path, .object members)
      ∨ ∃ m ∈ members, n ∈ nodes (path ++ [.member m.1]) m.2 := by
  rw [nodes, List.mem_cons, mem_memberNodes]

theorem nodes_scalar {v : Json} (h : v.isScalar = true) (path : List Step) :
    nodes path v = [(path, v)] := by
  cases v with
  | array elements => cases h
  | object members => cases h
  | _ => simp only [nodes]

end Json

end ApiGate
